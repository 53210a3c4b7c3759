import Mathlib.Logic.Function.Basic
import SparkLedger.Proofs.Dialogue.Held
import SparkLedger.Proofs.Object.Stored
import SparkLedger.Proofs.Tracker.World

/-!
# Reconciles one after the other

A server that stores pods and records and answers one reconcile at a time. It merges a patch into
the stored object, gives every object it stores a version and every record it creates a uid, and
answers with what it stores. Nobody else writes. Any of its answers may be a failure instead,
before or after the request takes effect.

* `Objects`, `Objects.Filed`, `Objects.Sound`: what is stored.
* `Server`: how requests are answered, and which of them fail. `Server.run`: work that is done with
  a server.
* `Server.attempt`: what comes of one request. `run_request`, `run_getPod`,
  `run_patchPod_of_answer`, `run_patchPod_of_some`: work that is one request, or none if nothing changes.
* `Server.Ensures`: what holds after work that ends well, and after work that ends anyhow.
-/

namespace SparkLedger

namespace Tracker

open Dialogue (Transcript Exchange Ending Environment)
open Cluster (isStale withMetadata)
open Object (HasMetadata Metadata amend conditionalPatch? Resource)

/-! ## What is stored -/

/-- Pods and records, by namespace and name. -/
@[ext]
structure Objects where
  pods : String × String → Option Json
  records : String × String → Option Json

namespace Objects

/-- Stores a pod. -/
def putPod (o : Objects) (place : String × String) (j : Json) : Objects :=
  { o with pods := Function.update o.pods place (some j) }

/-- Stores a record. -/
def putRecord (o : Objects) (place : String × String) (j : Json) : Objects :=
  { o with records := Function.update o.records place (some j) }

/-- Every object is stored under its own name, and as an object. -/
structure Filed (o : Objects) : Prop where
  pods : ∀ place j, o.pods place = some j →
    j.IsValue ∧ ∀ pod, Pod.ofJson? j = some pod → pod.metadata.identity? = some place
  records : ∀ place j, o.records place = some j →
    j.IsValue ∧ (∀ xs, j ≠ .arr xs) ∧
      ∀ a, Application.ofJson? j = some a → a.metadata.identity? = some place

/-- Every object is stored under its own name, and the structs of a record as objects. -/
structure Sound (o : Objects) : Prop where
  pods : ∀ place j, o.pods place = some j →
    j.IsValue ∧ ∀ pod, Pod.ofJson? j = some pod → pod.metadata.identity? = some place
  records : ∀ place j, o.records place = some j →
    j.IsValue ∧ Application.Named j ∧
      ∀ a, Application.ofJson? j = some a → a.metadata.identity? = some place

theorem Sound.filed {o : Objects} (h : o.Sound) : o.Filed where
  pods := h.pods
  records place j hj :=
    have ⟨hvalue, hstructs, hnamed⟩ := h.records place j hj
    ⟨hvalue, hstructs.ne_arr, hnamed⟩

end Objects

/-- What is stored, and what has been exchanged so far. -/
structure Site where
  objects : Objects
  said : Transcript Tracking

/-- The site after one more exchange. -/
def Site.tell (s : Site) (e : Exchange Tracking) (o : Objects) : Site := ⟨o, s.said ++ [e]⟩

/-- The site after exchanges that change nothing. -/
def Site.hear (s : Site) (t : Transcript Tracking) : Site := ⟨s.objects, s.said ++ t⟩

@[simp] theorem Site.hear_nil (s : Site) : s.hear [] = s := by rw [hear, List.append_nil]

theorem Site.hear_hear (s : Site) (t t' : Transcript Tracking) :
    (s.hear t).hear t' = s.hear (t ++ t') := by
  rw [hear, hear, hear, List.append_assoc]

/-! ## The server -/

/-- What becomes of a request for an object. -/
inductive Fate where
  | served
  /-- It fails and has no effect. -/
  | refused (error : Kube.Error)
  /-- It takes effect, and its answer is lost. -/
  | lost (error : Kube.Error)

/-- How questions are answered. What is numbered is so by the exchanges before. -/
structure Server where
  /-- The versions of the objects that are stored. -/
  version : Nat → String
  /-- The uids of the records that are created. -/
  uid : Nat → String
  /-- What becomes of the requests. -/
  fate : Nat → Fate
  /-- Whether patches that name another version than the stored one are refused. -/
  conditional : Bool
  /-- The info on the application of a driver, unless it never comes. -/
  info : Pod → String → Option Ledger → Option (Except Info.Error Info)

/-- An object as it is answered. -/
def shown {α : Type} (read : Json → Option α) (j : Json) : Except Kube.Error α :=
  match read j with
  | some a => .ok a
  | none => .error .undecodable

/-- The answer to reading an object. -/
def sought {α : Type} (read : Json → Option α) : Option Json → Except Kube.Error (Option α)
  | some j => (shown read j).map some
  | none => .ok none

/-- The answer where nothing is. -/
def notFound : Kube.Error := .api 404 "NotFound" "not found"

/-- The answer to a patch of another version. -/
def outdated : Kube.Error := .api 409 "Conflict" "the object has been modified"

/-- The answer to creating what is there. -/
def alreadyExists : Kube.Error := .api 409 "AlreadyExists" "already exists"

namespace Server

variable (S : Server)

/-- The server fails no request. -/
def Serves : Prop := ∀ n, S.fate n = .served

/-- What a request comes to whose answer is this if it is served, and after which these are the
objects if it takes effect. -/
def respond (q : Question) (a : q.Answer) (o : Objects) (s : Site) : Option q.Answer × Site :=
  match S.fate s.said.length with
  | .served => (some a, s.tell ⟨q, a⟩ o)
  | .refused error => (some (q.failed error), s.tell ⟨q, q.failed error⟩ s.objects)
  | .lost error => (some (q.failed error), s.tell ⟨q, q.failed error⟩ o)

/-- What a patch makes of what is stored. -/
def patched (version : String) (p : Json) : Option Json → Except Kube.Error Json
  | none => .error notFound
  | some j =>
    if S.conditional && isStale p j then .error outdated
    else .ok (withMetadata "resourceVersion" version (p.merge j))

/-- What is stored for a new record. -/
def created (version uid : String) (application : Application) :
    Option Json → Except Kube.Error Json
  | none => .ok (withMetadata "resourceVersion" version (withMetadata "uid" uid application.toJson))
  | some _ => .error alreadyExists

/-- Answers a question. -/
def answer : (q : Question) → Site → Option q.Answer × Site
  | .getPod ns name, s =>
    S.respond (.getPod ns name) (sought Pod.ofJson? (s.objects.pods (ns, name))) s.objects s
  | .patchPod ns name p, s =>
    match S.patched (S.version s.said.length) p (s.objects.pods (ns, name)) with
    | .ok j =>
      S.respond (.patchPod ns name p) (shown Pod.ofJson? j) (s.objects.putPod (ns, name) j) s
    | .error error =>
      S.respond (.patchPod ns name p) (.error error : Except Kube.Error Pod) s.objects s
  | .getApplication ns name, s =>
    S.respond (.getApplication ns name)
      (sought Application.ofJson? (s.objects.records (ns, name))) s.objects s
  | .createApplication ns application, s =>
    let place := (ns, application.metadata.name.getD "")
    match created (S.version s.said.length) (S.uid s.said.length) application
      (s.objects.records place) with
    | .ok j =>
      S.respond (.createApplication ns application) (shown Application.ofJson? j)
        (s.objects.putRecord place j) s
    | .error error =>
      S.respond (.createApplication ns application) (.error error : Except Kube.Error Application)
        s.objects s
  | .patchApplication ns name p, s =>
    match S.patched (S.version s.said.length) p (s.objects.records (ns, name)) with
    | .ok j =>
      S.respond (.patchApplication ns name p) (shown Application.ofJson? j)
        (s.objects.putRecord (ns, name) j) s
    | .error error =>
      S.respond (.patchApplication ns name p) (.error error : Except Kube.Error Application)
        s.objects s
  | .info driver applicationId recorded, s =>
    match S.info driver applicationId recorded with
    | some a => (some a, s.tell ⟨.info driver applicationId recorded, a⟩ s.objects)
    | none => (none, s)

/-- The server and its log, which is not kept. -/
def environment : Environment Tracking Site where
  answer := S.answer
  note _ s := s

variable {α β : Type}

/-- Does work with the server. -/
def run (x : Work α) (s : Site) : Ending (Except Error α) × Site := x.run.hold S.environment s

/-! ## Work that is done with a server -/

variable {S} {x : Work α} {f : α → Work β} {s s' : Site} {a : α}

theorem run_bind (x : Work α) (f : α → Work β) (s : Site) :
    S.run (x >>= f) s = match S.run x s with
      | (.done (.ok a), s) => S.run (f a) s
      | (.done (.error e), s) => (.done (.error e), s)
      | (.stalled, s) => (.stalled, s)
      | (.broken o, s) => (.broken o, s) := by
  rw [run, ExceptT.run_bind, Dialogue.bind_eq, Dialogue.hold_bind]
  change _ = match x.run.hold S.environment s with
      | (.done (.ok a), s) => S.run (f a) s
      | (.done (.error e), s) => (.done (.error e), s)
      | (.stalled, s) => (.stalled, s)
      | (.broken o, s) => (.broken o, s)
  cases x.run.hold S.environment s with
  | mk ending s' =>
    cases ending with
    | done r => cases r <;> rfl
    | stalled => rfl
    | broken o => rfl

theorem run_bind_of_ok (h : S.run x s = (.done (.ok a), s')) :
    S.run (x >>= f) s = S.run (f a) s' := by
  rw [run_bind, h]

/-- Nothing is done after work that does not end well. -/
theorem exists_run_bind {r : Ending (Except Error α)} (h : S.run x s = (r, s'))
    (hr : ∀ a, r ≠ .done (.ok a)) (f : α → Work β) :
    ∃ r' : Ending (Except Error β), S.run (x >>= f) s = (r', s') ∧ ∀ b, r' ≠ .done (.ok b) := by
  rw [run_bind, h]
  rcases r with (e | a) | _ | o
  · exact ⟨_, rfl, nofun⟩
  · exact absurd rfl (hr a)
  · exact ⟨_, rfl, nofun⟩
  · exact ⟨_, rfl, nofun⟩

theorem run_bind_eq_ok_iff {b : β} :
    S.run (x >>= f) s = (.done (.ok b), s') ↔
      ∃ a s₁, S.run x s = (.done (.ok a), s₁) ∧ S.run (f a) s₁ = (.done (.ok b), s') := by
  rw [run_bind]
  constructor
  · intro h
    rcases hx : S.run x s with ⟨(a | e) | _ | o, s₁⟩
    all_goals rw [hx] at h
    · cases h
    · exact ⟨_, s₁, rfl, h⟩
    · cases h
    · cases h
  · rintro ⟨a, s₁, hx, h⟩
    rw [hx]
    exact h

/-- Work that ends well part by part ends well. -/
theorem exists_run_bind_eq_ok (hx : ∃ a s₁, S.run x s = (.done (.ok a), s₁))
    (hf : ∀ a s₁, S.run x s = (.done (.ok a), s₁) → ∃ b s₂, S.run (f a) s₁ = (.done (.ok b), s₂)) :
    ∃ b s₂, S.run (x >>= f) s = (.done (.ok b), s₂) := by
  obtain ⟨a, s₁, hx⟩ := hx
  obtain ⟨b, s₂, hf⟩ := hf a s₁ hx
  exact ⟨b, s₂, run_bind_eq_ok_iff.2 ⟨a, s₁, hx, hf⟩⟩

/-! ## One request -/

/-- What comes of one request, by its exchange and the objects after it if it is served. -/
def attempt (S : Server) (cause : StoreError → Error) (e : Exchange Tracking) (o : Objects)
    (r : Except Error α) (s : Site) : Ending (Except Error α) × Site :=
  match S.fate s.said.length with
  | .served => (.done r, s.tell e o)
  | .refused error =>
    (.done (.error (cause (.ofKube error))),
      s.tell ⟨e.question, e.question.failed error⟩ s.objects)
  | .lost error =>
    (.done (.error (cause (.ofKube error))), s.tell ⟨e.question, e.question.failed error⟩ o)

variable {cause : StoreError → Error} {ns name : String}

/-- Work that makes one request and names its failures. -/
theorem run_request {q : Question} {a : q.Answer} {o : Objects} (result : q.Answer → Except Error α)
    (hfailed : ∀ error, result (q.failed error) = .error (cause (.ofKube error)))
    (hanswer : S.answer q s = S.respond q a o s) :
    S.run (ExceptT.mk (.ask (I := Tracking) q fun a => .done (result a))) s =
      S.attempt cause ⟨q, a⟩ o (result a) s := by
  have henv : S.environment.answer q s = S.respond q a o s := hanswer
  refine (Dialogue.hold_ask S.environment q _ s).trans ?_
  rw [henv, respond, attempt]
  cases S.fate s.said.length with
  | served => rfl
  | refused error => exact congrArg (fun r => (Ending.done r, _)) (hfailed error)
  | lost error => exact congrArg (fun r => (Ending.done r, _)) (hfailed error)

theorem run_getPod :
    S.run (.store cause (getPod ns name)) s =
      S.attempt cause ⟨.getPod ns name, sought Pod.ofJson? (s.objects.pods (ns, name))⟩ s.objects
        (((sought Pod.ofJson? (s.objects.pods (ns, name))).mapError .ofKube).mapError cause) s :=
  run_request (q := .getPod ns name)
    (fun a : Except Kube.Error (Option Pod) => (a.mapError .ofKube).mapError cause)
    (fun _ => rfl) rfl

theorem run_getApplication :
    S.run (.store cause (getApplication ns name)) s =
      S.attempt cause
        ⟨.getApplication ns name, sought Application.ofJson? (s.objects.records (ns, name))⟩
        s.objects
        (((sought Application.ofJson? (s.objects.records (ns, name))).mapError .ofKube).mapError
          cause) s :=
  run_request (q := .getApplication ns name)
    (fun a : Except Kube.Error (Option Application) =>
      (a.mapError .ofKube).mapError cause)
    (fun _ => rfl) rfl

theorem run_createApplication {application : Application}
    (hplace : application.metadata.identity? = some (ns, name))
    (hnone : s.objects.records (ns, name) = none) :
    let stored := withMetadata "resourceVersion" (S.version s.said.length)
      (withMetadata "uid" (S.uid s.said.length) application.toJson)
    S.run (.store cause (createApplication application)) s =
      S.attempt cause ⟨.createApplication ns application, shown Application.ofJson? stored⟩
        (s.objects.putRecord (ns, name) stored)
        (((shown Application.ofJson? stored).mapError .ofKube).mapError cause) s := by
  intro stored
  have hname : application.metadata.name.getD "" = name := by
    rw [(Metadata.identity?_eq_some_iff.1 hplace).2]
    rfl
  have hanswer : S.answer (.createApplication ns application) s =
      S.respond (.createApplication ns application) (shown Application.ofJson? stored)
        (s.objects.putRecord (ns, name) stored) s := by
    simp [answer, hname, hnone, created, stored]
  unfold createApplication
  rw [hplace]
  exact run_request (q := .createApplication ns application)
    (fun a : Except Kube.Error Application => (a.mapError .ofKube).mapError cause)
    (fun _ => rfl) hanswer

/-- A patch is not sent if there is nothing to change. -/
theorem run_patchWith_of_none [Resource α]
    {send : String → String → Json → Dialogue Tracking (Except Kube.Error α)} {old new : α}
    {place : String × String} (hplace : (Resource.metadata old).identity? = some place)
    (hp : conditionalPatch? old new = none) :
    S.run (.store cause (patchWith send old new)) s = (.done (.ok old), s) := by
  unfold patchWith
  rw [hplace, hp]
  rfl

section

variable {p j : Json}

/-- A change of a pod is one request. -/
theorem run_patchPod_of_answer {old new : Pod} (hplace : old.metadata.identity? = some (ns, name))
    (hp : conditionalPatch? old new = some p) {a : Except Kube.Error Pod} {o : Objects}
    (hanswer : S.answer (.patchPod ns name p) s = S.respond (.patchPod ns name p) a o s) :
    S.run (.store cause (patchPod old new)) s =
      S.attempt cause ⟨.patchPod ns name p, a⟩ o ((a.mapError .ofKube).mapError cause) s := by
  have hplace' : (Resource.metadata old).identity? = some (ns, name) := hplace
  unfold patchPod patchWith
  rw [hplace', hp]
  exact run_request (q := .patchPod ns name p)
    (fun a : Except Kube.Error Pod => (a.mapError .ofKube).mapError cause)
    (fun _ => rfl) hanswer

/-- A change of a record is one request. -/
theorem run_patchApplication_of_answer {old new : Application}
    (hplace : old.metadata.identity? = some (ns, name)) (hp : conditionalPatch? old new = some p)
    {a : Except Kube.Error Application} {o : Objects}
    (hanswer : S.answer (.patchApplication ns name p) s =
      S.respond (.patchApplication ns name p) a o s) :
    S.run (.store cause (patchApplication old new)) s =
      S.attempt cause ⟨.patchApplication ns name p, a⟩ o ((a.mapError .ofKube).mapError cause)
        s := by
  have hplace' : (Resource.metadata old).identity? = some (ns, name) := hplace
  unfold patchApplication patchWith
  rw [hplace', hp]
  exact run_request (q := .patchApplication ns name p)
    (fun a : Except Kube.Error Application => (a.mapError .ofKube).mapError cause)
    (fun _ => rfl) hanswer

theorem run_patchPod_of_some {old new : Pod} (hplace : old.metadata.identity? = some (ns, name))
    (hp : conditionalPatch? old new = some p) (hj : s.objects.pods (ns, name) = some j)
    (hstale : isStale p j = false) :
    let stored := withMetadata "resourceVersion" (S.version s.said.length) (p.merge j)
    S.run (.store cause (patchPod old new)) s =
      S.attempt cause ⟨.patchPod ns name p, shown Pod.ofJson? stored⟩
        (s.objects.putPod (ns, name) stored)
        (((shown Pod.ofJson? stored).mapError .ofKube).mapError cause) s := by
  intro stored
  exact run_patchPod_of_answer hplace hp (by simp [answer, hj, patched, hstale, stored])

theorem run_patchApplication_of_some {old new : Application}
    (hplace : old.metadata.identity? = some (ns, name)) (hp : conditionalPatch? old new = some p)
    (hj : s.objects.records (ns, name) = some j) (hstale : isStale p j = false) :
    let stored := withMetadata "resourceVersion" (S.version s.said.length) (p.merge j)
    S.run (.store cause (patchApplication old new)) s =
      S.attempt cause ⟨.patchApplication ns name p, shown Application.ofJson? stored⟩
        (s.objects.putRecord (ns, name) stored)
        (((shown Application.ofJson? stored).mapError .ofKube).mapError cause) s := by
  intro stored
  exact run_patchApplication_of_answer hplace hp (by simp [answer, hj, patched, hstale, stored])

end

/-- A request is served, or it fails before or after it takes effect. -/
theorem attempt_cases (S : Server) (cause : StoreError → Error) (e : Exchange Tracking)
    (o : Objects) (r : Except Error α) (s : Site) :
    S.attempt cause e o r s = (.done r, s.tell e o) ∨
      ∃ error o', (o' = s.objects ∨ o' = o) ∧ S.attempt cause e o r s =
        (.done (.error (cause (.ofKube error))),
          s.tell ⟨e.question, e.question.failed error⟩ o') := by
  unfold attempt
  cases S.fate s.said.length with
  | served => exact .inl rfl
  | refused error => exact .inr ⟨error, s.objects, .inl rfl, rfl⟩
  | lost error => exact .inr ⟨error, o, .inr rfl, rfl⟩

theorem Serves.attempt_eq (h : S.Serves) (cause : StoreError → Error) (e : Exchange Tracking)
    (o : Objects) (r : Except Error α) (s : Site) :
    S.attempt cause e o r s = (.done r, s.tell e o) := by
  rw [attempt, h]

/-! ## What holds afterwards -/

/-- What holds after work that ends well, and what holds after work that ends anyhow. -/
structure Ensures (S : Server) (x : Work α) (s : Site) (post : α → Site → Prop)
    (any : Site → Prop) : Prop where
  ok : ∀ a s', S.run x s = (.done (.ok a), s') → post a s'
  any : any (S.run x s).2

namespace Ensures

variable {post : α → Site → Prop} {post' : β → Site → Prop} {any : Site → Prop}

theorem bind (hx : S.Ensures x s post any)
    (hf : ∀ a s', post a s' → any s' → S.Ensures (f a) s' post' any) :
    S.Ensures (x >>= f) s post' any := by
  obtain ⟨hok, hany⟩ := hx
  obtain ⟨r, s₁, hx⟩ : ∃ r s₁, S.run x s = (r, s₁) := ⟨_, _, rfl⟩
  rw [hx] at hany
  by_cases hr : ∀ a, r ≠ .done (.ok a)
  · obtain ⟨r', hrun, hr'⟩ := exists_run_bind hx hr f
    refine ⟨fun b s₂ h => ?_, hrun ▸ hany⟩
    cases hrun.symm.trans h
    exact absurd rfl (hr' b)
  · obtain ⟨a, ha⟩ := not_forall.1 hr
    cases not_not.1 ha
    obtain ⟨hok', hany'⟩ := hf a s₁ (hok a s₁ hx) hany
    exact ⟨fun b s₂ h => hok' b s₂ (run_bind_of_ok hx ▸ h), run_bind_of_ok hx ▸ hany'⟩

theorem mono {any' : Site → Prop} {post' : α → Site → Prop} (h : S.Ensures x s post any)
    (hpost : ∀ a s', post a s' → post' a s') (hany : ∀ s', any s' → any' s') :
    S.Ensures x s post' any' :=
  ⟨fun a s' hs' => hpost a s' (h.ok a s' hs'), hany _ h.any⟩

theorem of_run (hx : S.run x s = (.done (.ok a), s')) (hpost : post a s') (hany : any s') :
    S.Ensures x s post any where
  ok b s'' h := by
    cases hx.symm.trans h
    exact hpost
  any := hx ▸ hany

theorem of_attempt {e : Exchange Tracking} {o : Objects} {r : Except Error α}
    (hx : S.run x s = S.attempt cause e o r s) (hpost : ∀ a, r = .ok a → post a (s.tell e o))
    (hserved : any (s.tell e o))
    (hfailed : ∀ error o', o' = s.objects ∨ o' = o →
      any (s.tell ⟨e.question, e.question.failed error⟩ o')) :
    S.Ensures x s post any := by
  rcases S.attempt_cases cause e o r s with h | ⟨error, o', ho', h⟩
  all_goals rw [← hx] at h
  · refine ⟨fun a s' hs' => ?_, h ▸ hserved⟩
    cases h.symm.trans hs'
    exact hpost a rfl
  · refine ⟨fun a s' hs' => ?_, h ▸ hfailed error o' ho'⟩
    cases h.symm.trans hs'

end Ensures

end Server

/-! ## A driver that leaves -/

/-- A driver that is being deleted. -/
def leavingDriver : Pod :=
  { Setup.pairPod "driver" with
    metadata.deletionTimestamp := some ⟨"2024-05-01T10:00:00Z", by decide +kernel⟩ }

/-- A driver that is being deleted, and no record of its application. -/
def Objects.leaving : Objects where
  pods place := if place = ("spark", "driver") then some leavingDriver.toJson else none
  records _ := none

theorem Objects.sound_leaving : leaving.Sound where
  pods place j h := by
    obtain ⟨rfl, h⟩ := Option.ite_none_right_eq_some.1 h
    cases h
    refine ⟨(Pod.faithful.plain leavingDriver).isValue, fun pod hpod => ?_⟩
    cases (Pod.faithful.read_write leavingDriver).symm.trans hpod
    rfl
  records place j h := by cases h

/-- A server that fails no request. -/
def Server.serving (info : Pod → String → Option Ledger → Option (Except Info.Error Info)) :
    Server where
  version n := toString n
  uid _ := "application-uid"
  fate _ := .served
  conditional := true
  info := info

/-- The outcome of a reconcile that ends well. -/
def outcome? : Ending (Except Error Outcome) → Option Outcome
  | .done (.ok outcome) => some outcome
  | _ => none

theorem exists_of_outcome? {r : Ending (Except Error Outcome) × Site} {outcome : Outcome}
    (h : outcome? r.1 = some outcome) : ∃ s, r = (.done (.ok outcome), s) := by
  rcases r with ⟨(_ | outcome') | _ | _, s⟩ <;> cases h
  exact ⟨s, rfl⟩

end Tracker

end SparkLedger

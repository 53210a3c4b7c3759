import SparkLedger.Proofs.Info.Sources
import SparkLedger.Proofs.Tracker.Course

/-!
# Reconciles that nobody disturbs

Every write of a reconcile is made from what was read or answered before, and names the version of
that. So long as nobody else writes, this is the version that is stored: each patch of the pod is
made from the pod as the patch before has left it, the record is written once, and it is created
only if it was absent. So no write of a reconcile is ever refused on account of an earlier one.
All of them are for the pod itself and for the record of its application.

* `Place`, `Objects.reach`: where a reconcile may read and write.
* `Apt`, `Served`, `Host`: requests that fit what is stored, what they come to, and an environment
  that serves them.
* `Host.Steady`: work that keeps to its places and does not fail on account of a conflict.
  `Host.steady_reconcile`: a reconcile is such work.
* `never_conflicts_with_itself`: a reconcile with a server.
-/

namespace SparkLedger.Tracker

open Dialogue (Environment Ending About AsksOnly)
open Cluster (isStale withMetadata)
open Info (Sources)
open Object (Metadata conditionalPatch? Resource)

/-! ## Places -/

/-- Where an object is stored, by namespace and name. -/
inductive Place where
  | pod (place : String × String)
  | record (place : String × String)
  deriving DecidableEq

/-- The place of the object that a question is about. -/
def Question.place? : Question → Option Place
  | .getPod ns name => some (.pod (ns, name))
  | .patchPod ns name _ => some (.pod (ns, name))
  | .getApplication ns name => some (.record (ns, name))
  | .createApplication ns application => some (.record (ns, application.metadata.name.getD ""))
  | .patchApplication ns name _ => some (.record (ns, name))
  | .info .. => none

/-- A question about one of these places, or about no object. -/
def Question.Within (P : Set Place) : Question → Prop := About (I := Tracking) Question.place? P

namespace Objects

/-- The object in a place. -/
def at? (o : Objects) : Place → Option Json
  | .pod place => o.pods place
  | .record place => o.records place

/-- The application that a stored pod is labelled with. -/
def applicationId? (o : Objects) (place : String × String) : Option String :=
  ((o.pods place).bind Pod.ofJson?).bind (·.metadata.label? Pod.applicationLabel)

/-- The places that a reconcile may be about: its pod, and the record of the application that the
pod is labelled with. -/
def reach (o : Objects) (ns name : String) : Set Place :=
  {place | place = .pod (ns, name) ∨
    ∃ id, o.applicationId? (ns, name) = some id ∧ place = .record (ns, id)}

theorem HasPod.of_pods_eq {o o' : Objects} {place : String × String} {j : Json} {pod : Pod}
    (h : o.HasPod place j pod) (hpods : o'.pods = o.pods) : o'.HasPod place j pod :=
  ⟨by rw [hpods, h.stored], h.metadata, h.read, h.named⟩

end Objects

/-! ## Hosts -/

/-- The requests that fit what is stored: a patch names no other version than the stored one, and a
record that is created is absent. -/
def Apt (o : Objects) : Question → Prop
  | .patchPod ns name p => ∃ j, o.pods (ns, name) = some j ∧ isStale p j = false
  | .createApplication ns application =>
    o.records (ns, application.metadata.name.getD "") = none
  | .patchApplication ns name p => ∃ j, o.records (ns, name) = some j ∧ isStale p j = false
  | _ => True

/-- What a request comes to that is served: its answer, and what is stored afterwards. -/
inductive Served (o : Objects) : (q : Question) → q.Answer → Objects → Prop where
  | getPod (ns name : String) :
    Served o (.getPod ns name) (sought Pod.ofJson? (o.pods (ns, name))) o
  | patchPod {ns name : String} {p j stored : Json} (version : String)
      (hj : o.pods (ns, name) = some j)
      (hstored : stored = withMetadata "resourceVersion" version (p.merge j)) :
    Served o (.patchPod ns name p) (shown Pod.ofJson? stored) (o.putPod (ns, name) stored)
  | getApplication (ns name : String) :
    Served o (.getApplication ns name) (sought Application.ofJson? (o.records (ns, name))) o
  | createApplication {ns : String} {application : Application} {stored : Json}
      (version uid : String)
      (hstored : stored = withMetadata "resourceVersion" version
        (withMetadata "uid" uid application.toJson)) :
    Served o (.createApplication ns application) (shown Application.ofJson? stored)
      (o.putRecord (ns, application.metadata.name.getD "") stored)
  | patchApplication {ns name : String} {p j stored : Json} (version : String)
      (hj : o.records (ns, name) = some j)
      (hstored : stored = withMetadata "resourceVersion" version (p.merge j)) :
    Served o (.patchApplication ns name p) (shown Application.ofJson? stored)
      (o.putRecord (ns, name) stored)
  | info {driver : Pod} {applicationId : String} {recorded : Option Ledger}
      (a : Except Info.Error Info) : Served o (.info driver applicationId recorded) a o

/-- An environment that stores objects. It serves requests that fit, or fails those for objects for
a reason that is no conflict. -/
structure Host (σ : Type) extends Environment Tracking σ where
  objects : σ → Objects
  objects_note : ∀ line s, objects (note line s) = objects s
  serves : ∀ q s a s', Apt (objects s) q → answer q s = (some a, s') →
    Served (objects s) q a (objects s') ∨
      ∃ error, q.place? ≠ none ∧ (StoreError.ofKube error).isConflict = false ∧
        a = q.failed error

/-! ## Steady work -/

namespace Host

variable {σ α β : Type}

/-- What holds of a result: of a value what is asked for, and no error is a conflict. -/
def Ended (post : α → Objects → Prop) : Except Error α → Objects → Prop
  | .ok a, o => post a o
  | .error e, _ => e.isConflict = false

/-- Work that is only about some places, that does not fail on account of a conflict, and after
which something holds if it ends well. -/
structure Steady (H : Host σ) (P : Set Place) (x : Work α) (o : Objects)
    (post : α → Objects → Prop) : Prop where
  about : ∀ s, H.objects s = o → x.run.AsksOnly H.toEnvironment (Question.Within P) s
  ended : ∀ s, H.objects s = o → ∀ r s',
    x.run.hold H.toEnvironment s = (.done r, s') → Ended post r (H.objects s')

variable {H : Host σ} {P : Set Place} {x : Work α} {f : α → Work β} {o : Objects}
  {post : α → Objects → Prop} {post₂ : β → Objects → Prop}

namespace Steady

theorem done {r : Except Error α} (h : Ended post r o) :
    H.Steady P (ExceptT.mk (.done r)) o post where
  about _ _ := trivial
  ended s hs r s' hrun := by
    cases hrun
    rwa [hs]

theorem pure {a : α} (h : post a o) : H.Steady P (pure a) o post := .done (r := .ok a) h

/-- A log line changes nothing. -/
theorem note {line : Log.Line} {d : Dialogue Tracking (Except Error α)}
    (h : H.Steady P (ExceptT.mk d) o post) : H.Steady P (ExceptT.mk (.note line d)) o post where
  about s hs := h.about (H.note line s) ((H.objects_note line s).trans hs)
  ended s hs := h.ended (H.note line s) ((H.objects_note line s).trans hs)

theorem bind (hx : H.Steady P x o post) (hf : ∀ a o', post a o' → H.Steady P (f a) o' post₂) :
    H.Steady P (x >>= f) o post₂ where
  about s hs := by
    rw [ExceptT.run_bind, Dialogue.bind_eq]
    refine Dialogue.asksOnly_bind.2 ⟨hx.about s hs, fun r s' hrun => ?_⟩
    have hended := hx.ended s hs r s' hrun
    cases r with
    | ok a => exact (hf a _ hended).about s' rfl
    | error e => trivial
  ended s hs r s' hrun := by
    rw [ExceptT.run_bind, Dialogue.bind_eq, Dialogue.hold_bind] at hrun
    rcases hx' : x.run.hold H.toEnvironment s with ⟨r₁ | _ | _, s₁⟩
    all_goals rw [hx'] at hrun
    · have hended := hx.ended s hs r₁ s₁ hx'
      cases r₁ with
      | ok a => exact (hf a _ hended).ended s₁ rfl r s' hrun
      | error e =>
        cases hrun
        exact hended
    · cases hrun
    · cases hrun

theorem log_bind {level : Log.Level} {text : String} {x : Work β} (h : H.Steady P x o post₂) :
    H.Steady P (Work.log level text >>= fun _ => x) o post₂ := .note h

theorem orFail_bind {e : Error} {a? : Option α} (he : e.isConflict = false)
    (h : ∀ a, a? = some a → H.Steady P (f a) o post₂) :
    H.Steady P (Work.orFail e a? >>= f) o post₂ := by
  cases a? with
  | none => exact .done (r := .error e) he
  | some a => exact h a rfl

theorem checked_bind {c : Except Overflow α} (h : ∀ a, c = .ok a → H.Steady P (f a) o post₂) :
    H.Steady P (Work.checked c >>= f) o post₂ := by
  cases c with
  | ok a => exact h a rfl
  | error overflow => exact ⟨fun _ _ => trivial, fun _ _ _ _ hrun => by cases hrun⟩

/-- Work that is one question. -/
theorem ask {q : Question} (result : q.Answer → Except Error α) (hP : q.Within P)
    (hapt : Apt o q) (hserved : ∀ a o', Served o q a o' → Ended post (result a) o')
    (hfailed : ∀ error o', q.place? ≠ none → (StoreError.ofKube error).isConflict = false →
      Ended post (result (q.failed error)) o') :
    H.Steady P (ExceptT.mk (.ask (I := Tracking) q fun a => .done (result a))) o post := by
  have hended (s : σ) (hs : H.objects s = o) (a : q.Answer) (s' : σ)
      (ha : H.answer q s = (some a, s')) : Ended post (result a) (H.objects s') := by
    rcases H.serves q s a s' (hs ▸ hapt) ha with h | ⟨error, hplace, herror, rfl⟩
    · exact hserved a _ (hs ▸ h)
    · exact hfailed error _ hplace herror
  refine ⟨fun s hs => ⟨hP, fun a s' ha => trivial⟩, fun s hs r s' hrun => ?_⟩
  replace hrun := (Dialogue.hold_ask H.toEnvironment q _ s).symm.trans hrun
  rcases ha : H.answer q s with ⟨_ | a, s₁⟩
  all_goals rw [ha] at hrun
  · cases hrun
  · cases hrun
    exact hended s hs a _ ha

/-- Work that is one request for an object. -/
theorem request {q : Question} {cause : StoreError → Error} (result : q.Answer → Except Error α)
    (hcause : ∀ e, (cause e).isConflict = e.isConflict) (hP : q.Within P)
    (hapt : Apt o q) (hserved : ∀ a o', Served o q a o' → Ended post (result a) o')
    (hfailed : ∀ error, result (q.failed error) = .error (cause (.ofKube error))) :
    H.Steady P (ExceptT.mk (.ask (I := Tracking) q fun a => .done (result a))) o post := by
  refine ask result hP hapt hserved fun error o' _ herror => ?_
  rw [hfailed]
  exact (hcause _).trans herror

end Steady

/-- An answer is read, or it cannot be read, which is no conflict. -/
theorem ended_shown {read : Json → Option α} {j : Json} {cause : StoreError → Error}
    (hcause : ∀ e, (cause e).isConflict = e.isConflict) (h : ∀ a, read j = some a → post a o) :
    Ended post (((shown read j).mapError .ofKube).mapError cause) o := by
  unfold shown
  cases hread : read j with
  | none => exact hcause _
  | some a => exact h a hread

theorem ended_sought {read : Json → Option α} {stored : Option Json} {cause : StoreError → Error}
    {post : Option α → Objects → Prop} (hcause : ∀ e, (cause e).isConflict = e.isConflict)
    (h : ∀ a?, sought read stored = .ok a? → post a? o) :
    Ended post (((sought read stored).mapError .ofKube).mapError cause) o := by
  cases stored with
  | none => exact h none rfl
  | some j =>
    cases hread : read j with
    | none =>
      rw [sought, shown, hread]
      exact hcause _
    | some a =>
      rw [sought, shown, hread] at h ⊢
      exact h (some a) rfl

/-! ## The parts of a reconcile -/

variable {cause : StoreError → Error} {place : String × String} {ns name applicationId : String}
  {j : Json} {pod pod' : Pod} {existing : Option Application} {a : Application}

theorem steady_getPod (hcause : ∀ e, (cause e).isConflict = e.isConflict)
    (hP : .pod (ns, name) ∈ P) :
    H.Steady P (.store cause (getPod ns name)) o
      fun pod? o' => o' = o ∧ sought Pod.ofJson? (o.pods (ns, name)) = .ok pod? := by
  refine .request (q := .getPod ns name)
    (fun a : Except Kube.Error (Option Pod) => (a.mapError .ofKube).mapError cause)
    hcause (fun _ h => Option.some.inj h ▸ hP) trivial ?_ fun _ => rfl
  rintro _ _ ⟨⟩
  exact ended_sought hcause fun pod? hpod => ⟨rfl, hpod⟩

theorem steady_getApplication (hcause : ∀ e, (cause e).isConflict = e.isConflict)
    (hP : .record (ns, name) ∈ P) :
    H.Steady P (.store cause (getApplication ns name)) o
      fun existing o' => o' = o ∧
        sought Application.ofJson? (o.records (ns, name)) = .ok existing := by
  refine .request (q := .getApplication ns name)
    (fun a : Except Kube.Error (Option Application) =>
      (a.mapError .ofKube).mapError cause)
    hcause (fun _ h => Option.some.inj h ▸ hP) trivial ?_ fun _ => rfl
  rintro _ _ ⟨⟩
  exact ended_sought hcause fun existing hexisting => ⟨rfl, hexisting⟩

/-- A pod is changed from what is stored to what is answered. -/
theorem steady_patchPod (hcause : ∀ e, (cause e).isConflict = e.isConflict)
    (hpod : o.HasPod place j pod) (hchange : Pod.Change pod pod') (hP : .pod place ∈ P) :
    H.Steady P (.store cause (patchPod pod pod')) o
      fun pod' o' => ∃ j', o'.HasPod place j' pod' := by
  obtain ⟨ns, name⟩ := place
  have hnamed : (Resource.metadata pod).identity? = some (ns, name) := hpod.named
  unfold patchPod patchWith
  rw [hnamed]
  cases hp : conditionalPatch? pod pod' with
  | none => exact .note (.done (r := .ok pod) ⟨j, hpod⟩)
  | some p =>
    refine .note (.request (q := .patchPod ns name p)
      (fun a : Except Kube.Error Pod => (a.mapError .ofKube).mapError cause)
      hcause (fun _ h => Option.some.inj h ▸ hP) ⟨j, hpod.stored, (hpod.patch hchange hp "").1⟩ ?_
      fun _ => rfl)
    rintro _ _ h
    cases h with
    | patchPod version hj hstored =>
      obtain rfl := Option.some.inj (hpod.stored.symm.trans hj)
      subst hstored
      obtain ⟨-, hpod', -⟩ := hpod.patch hchange hp version
      refine ended_shown hcause fun pod'' hread => ?_
      obtain rfl := Option.some.inj (hpod'.read.symm.trans hread)
      exact ⟨_, hpod'⟩

/-- A record is created where there is none, or changed from what is stored. -/
theorem steady_writeApplication (hholds : o.Holds place existing)
    (hnamed : a.metadata.identity? = some place)
    (hversion : ∀ b, existing = some b → a.metadata.resourceVersion = b.metadata.resourceVersion)
    (hP : .record place ∈ P) :
    H.Steady P (writeApplication existing a) o fun _ o' => o'.pods = o.pods := by
  obtain ⟨ns, name⟩ := place
  cases existing with
  | none =>
    have hname : a.metadata.name.getD "" = name := by
      rw [(Metadata.identity?_eq_some_iff.1 hnamed).2]
      rfl
    unfold writeApplication createApplication
    rw [hnamed]
    refine .note (.request (q := .createApplication ns a)
      (fun a : Except Kube.Error Application => (a.mapError .ofKube).mapError .store)
      (fun _ => rfl) ?_ ?_ ?_ fun _ => rfl)
    · intro _ h
      rw [← Option.some.inj h, hname]
      exact hP
    · change o.records (ns, a.metadata.name.getD "") = none
      rw [hname]
      exact hholds
    · rintro _ _ ⟨⟩
      exact ended_shown (fun _ => rfl) fun _ _ => rfl
  | some b =>
    obtain ⟨hb, j, hstored, ⟨ms, metadata, hmeta⟩, hread⟩ := hholds
    have hb : (Resource.metadata b).identity? = some (ns, name) := hb
    unfold writeApplication patchApplication patchWith
    dsimp only
    rw [hb]
    cases hp : conditionalPatch? b a with
    | none => exact .note (.done (r := .ok b) rfl)
    | some p =>
      have hstale : isStale p j = false := Object.isStale_conditionalPatch? hmeta
        (Application.ofJson?_metadata hmeta hread) hp (hversion b rfl)
      refine .note (.request (q := .patchApplication ns name p)
        (fun a : Except Kube.Error Application => (a.mapError .ofKube).mapError .store)
        (fun _ => rfl) (fun _ h => Option.some.inj h ▸ hP) ⟨j, hstored, hstale⟩ ?_ fun _ => rfl)
      rintro _ _ ⟨⟩
      exact ended_shown (fun _ => rfl) fun _ _ => rfl

theorem steady_hold (hpod : o.HasPod place j pod) (hP : .pod place ∈ P) :
    H.Steady P (hold pod) o fun pod' o' => ∃ j', o'.HasPod place j' pod' :=
  steady_patchPod (fun _ => rfl) hpod (.of_finalizers pod _) hP

theorem steady_release (hpod : o.HasPod place j pod) (hP : .pod place ∈ P) :
    H.Steady P (release pod) o fun _ _ => True := by
  unfold release
  split
  · have hpatch : H.Steady P (.store .finalizer (patchPod pod pod.released)) o _ :=
      steady_patchPod (fun _ => rfl) hpod (.of_finalizers pod _) hP
    exact hpatch.bind fun _ _ _ => .pure trivial
  · exact .pure trivial

theorem steady_recordInfo {spec : Application.Spec} :
    H.Steady P (recordInfo pod applicationId spec) o fun _ o' => o' = o := by
  have hinfo : H.Steady P (Work.info pod applicationId spec.stageLedger) o fun _ o' => o' = o := by
    refine .ask (q := .info pod applicationId spec.stageLedger)
      (fun a : Except Info.Error Info => .ok a) (fun _ h => by cases h) trivial ?_
      fun _ _ hplace => absurd rfl hplace
    rintro _ _ ⟨⟩
    rfl
  refine hinfo.bind fun r o' ho' => ?_
  cases r with
  | ok info => exact .checked_bind fun spec' _ => .pure ho'
  | error e => exact .log_bind (.pure ho')

theorem steady_ownDriver {heritage : Application.Heritage} (hpod : o.HasPod place j pod)
    (hP : .pod place ∈ P) :
    H.Steady P (ownDriver pod applicationId heritage a) o
      fun pod' o' => ∃ j', o'.HasPod place j' pod' := by
  unfold ownDriver
  split
  · cases a.ownerReference? with
    | some reference =>
      have hpatch : H.Steady P (.store .ownerReference (patchPod pod (pod.owned (some reference))))
          o _ := steady_patchPod (fun _ => rfl) hpod (Pod.change_owned pod _) hP
      exact hpatch.bind fun pod' o' hpod' => .log_bind (.pure hpod')
    | none => exact .pure ⟨j, hpod⟩
  · exact .pure ⟨j, hpod⟩

section

variable {runningRequeue : Seconds} {role : Pod.Role}

theorem steady_trackDriver (hpod : o.HasPod (ns, name) j pod)
    (hholds : o.Holds (ns, applicationId) existing) (hP : .pod (ns, name) ∈ P)
    (hrecord : .record (ns, applicationId) ∈ P) :
    H.Steady P (trackDriver runningRequeue pod applicationId existing) o
      fun result o' => ∃ j', o'.HasPod (ns, name) j' result.2 := by
  unfold trackDriver
  refine .orFail_bind rfl fun ⟨ns', name'⟩ hplace => ?_
  obtain ⟨rfl, rfl⟩ : ns = ns' ∧ name = name' := by simpa using hpod.named.symm.trans hplace
  refine .orFail_bind rfl fun heritage _ => steady_recordInfo.bind fun (spec, failure) o' ho' => ?_
  subst ho'
  have hwrite : H.Steady P (writeApplication existing
      { existing.getD (.template ns applicationId) with spec := spec.named name }) o'
      fun _ o₁ => o₁.pods = o'.pods := by
    refine steady_writeApplication hholds ?_ (fun b hb => by rw [hb]; rfl) hrecord
    cases existing with
    | none => rfl
    | some b => exact hholds.1
  refine hwrite.bind fun stored o₁ hpods =>
    (steady_ownDriver (hpod.of_pods_eq hpods) hP).bind fun pod' o₂ hpod' => ?_
  dsimp only
  split
  · exact .pure hpod'
  · exact .pure hpod'

theorem steady_trackExecutor (hholds : o.Holds (ns, applicationId) existing)
    (hrecord : .record (ns, applicationId) ∈ P) :
    H.Steady P (trackExecutor pod applicationId existing) o fun _ o' => o'.pods = o.pods := by
  unfold trackExecutor
  refine .orFail_bind rfl fun uid _ => .orFail_bind rfl fun stored hstored => ?_
  subst hstored
  have hwrite : H.Steady P (writeApplication (some stored) (stored.withExecutor uid pod)) o _ :=
    steady_writeApplication hholds hholds.1 (fun b hb => by cases hb; rfl) hrecord
  exact hwrite.bind fun _ o' hpods => .pure hpods

theorem steady_track (hpod : o.HasPod (ns, name) j pod)
    (hholds : o.Holds (ns, applicationId) existing) (hP : .pod (ns, name) ∈ P)
    (hrecord : .record (ns, applicationId) ∈ P) :
    H.Steady P (track runningRequeue pod applicationId existing role) o
      fun result o' => ∃ j', o'.HasPod (ns, name) j' result.2 := by
  cases role with
  | driver => exact steady_trackDriver hpod hholds hP hrecord
  | executor =>
    exact (steady_trackExecutor hholds hrecord).bind fun outcome o' hpods =>
      .pure ⟨j, hpod.of_pods_eq hpods⟩

theorem steady_reconcileTracked (ho : o.Filed) (hpod : o.HasPod (ns, name) j pod)
    (hP : .pod (ns, name) ∈ P) (hrecord : .record (ns, applicationId) ∈ P) :
    H.Steady P (reconcileTracked runningRequeue ns name pod applicationId role) o
      fun _ _ => True := by
  refine (steady_getApplication (fun _ => rfl) hrecord).bind fun existing o' hread => ?_
  obtain ⟨rfl, hsought⟩ := hread
  have hholds := ho.holds hsought
  split
  · exact .log_bind ((steady_release hpod hP).bind fun _ _ _ => .pure trivial)
  · refine (steady_track hpod hholds hP hrecord).bind fun (outcome, pod') o' hpod' => ?_
    obtain ⟨j', hpod'⟩ := hpod'
    dsimp only
    split
    · exact (steady_release hpod' hP).bind fun _ _ _ => .log_bind (.pure trivial)
    · exact .pure trivial

/-- A reconcile is about its pod and the record of its application, and does not fail on account
of a conflict. -/
theorem steady_reconcile (ho : o.Filed) (runningRequeue : Seconds) (ns name : String) :
    H.Steady (o.reach ns name) (reconcile runningRequeue ns name) o fun _ _ => True := by
  have hP : .pod (ns, name) ∈ o.reach ns name := .inl rfl
  refine (steady_getPod (fun _ => rfl) hP).bind fun pod? o' hread => ?_
  obtain ⟨rfl, hsought⟩ := hread
  cases pod? with
  | none => exact .log_bind (.pure trivial)
  | some pod =>
    obtain ⟨j, hpod⟩ := ho.hasPod hsought
    dsimp only
    split
    · exact .pure trivial
    · exact .log_bind (.pure trivial)
    rename_i applicationId _ hlabel
    have hrecord : .record (ns, applicationId) ∈ o'.reach ns name := by
      refine .inr ⟨applicationId, ?_, rfl⟩
      rw [Objects.applicationId?, hpod.stored, Option.bind_some, hpod.read, Option.bind_some,
        hlabel]
    split
    · exact .log_bind (.pure trivial)
    unfold reconcileMember
    split
    · exact (steady_hold hpod hP).bind fun _ _ _ => .log_bind (.pure trivial)
    · exact steady_reconcileTracked ho hpod hP hrecord

end

end Host

/-! ## Servers -/

namespace Server

variable {S : Server} {s : Site}

/-- No request fails as a conflict of its own accord. -/
def Impartial (S : Server) : Prop :=
  ∀ n error, S.fate n = .refused error ∨ S.fate n = .lost error →
    (StoreError.ofKube error).isConflict = false

theorem Impartial.respond_cases (hS : S.Impartial) {q : Question} {a a' : q.Answer} {o : Objects}
    {s' : Site} (h : S.respond q a o s = (some a', s')) :
    (a' = a ∧ s'.objects = o) ∨
      ∃ error, (StoreError.ofKube error).isConflict = false ∧ a' = q.failed error := by
  unfold respond at h
  cases hfate : S.fate s.said.length with
  | served =>
    rw [hfate] at h
    cases h
    exact .inl ⟨rfl, rfl⟩
  | refused error =>
    rw [hfate] at h
    cases h
    exact .inr ⟨error, hS _ _ (.inl hfate), rfl⟩
  | lost error =>
    rw [hfate] at h
    cases h
    exact .inr ⟨error, hS _ _ (.inr hfate), rfl⟩

theorem Impartial.serves (hS : S.Impartial) {q : Question} {a : q.Answer} {s' : Site}
    (hapt : Apt s.objects q) (h : S.answer q s = (some a, s')) :
    Served s.objects q a s'.objects ∨
      ∃ error, q.place? ≠ none ∧ (StoreError.ofKube error).isConflict = false ∧
        a = q.failed error := by
  -- What the server responds with, and what it stores then.
  have hrespond {a₀ : q.Answer} {o : Objects} (hplace : q.place? ≠ none)
      (hserves : Served s.objects q a₀ o) (hanswer : S.answer q s = S.respond q a₀ o s) :
      Served s.objects q a s'.objects ∨ ∃ error, q.place? ≠ none ∧
        (StoreError.ofKube error).isConflict = false ∧ a = q.failed error := by
    rcases hS.respond_cases (hanswer.symm.trans h) with ⟨rfl, rfl⟩ | ⟨error, herror, ha⟩
    · exact .inl hserves
    · exact .inr ⟨error, hplace, herror, ha⟩
  cases q with
  | getPod ns name => exact hrespond (Option.some_ne_none _) (.getPod ns name) rfl
  | patchPod ns name p =>
    obtain ⟨j, hj, hstale⟩ := hapt
    exact hrespond (Option.some_ne_none _) (.patchPod (S.version s.said.length) hj rfl)
      (by simp [answer, patched, hj, hstale])
  | getApplication ns name => exact hrespond (Option.some_ne_none _) (.getApplication ns name) rfl
  | createApplication ns application =>
    replace hapt : s.objects.records (ns, application.metadata.name.getD "") = none := hapt
    exact hrespond (Option.some_ne_none _)
      (.createApplication (S.version s.said.length) (S.uid s.said.length) rfl)
      (by simp [answer, created, hapt])
  | patchApplication ns name p =>
    obtain ⟨j, hj, hstale⟩ := hapt
    exact hrespond (Option.some_ne_none _) (.patchApplication (S.version s.said.length) hj rfl)
      (by simp [answer, patched, hj, hstale])
  | info driver applicationId recorded =>
    simp only [answer] at h
    split at h
    · cases h
      exact .inl (.info _)
    · cases h

/-- A server is a host. -/
def host (S : Server) (hS : S.Impartial) : Host Site where
  toEnvironment := S.environment
  objects := Site.objects
  objects_note _ _ := rfl
  serves _ _ _ _ hapt h := hS.serves hapt h

end Server

/-- A reconcile that nobody disturbs does not fail on account of a conflict, whatever objects the
server keeps under their names, whatever versions it gives and whatever it is told of the
application, unless the server fails a request as a conflict of its own accord. -/
theorem never_conflicts_with_itself {S : Server} (hS : S.Impartial) {s : Site}
    (ho : s.objects.Filed) {runningRequeue : Seconds} {ns name : String} {e : Error}
    (h : (S.run (reconcile runningRequeue ns name) s).1 = .done (.error e)) :
    e.isConflict = false := by
  obtain ⟨s', hrun⟩ : ∃ s', S.run (reconcile runningRequeue ns name) s =
      (.done (.error e), s') := ⟨_, Prod.ext h rfl⟩
  have hsteady : (S.host hS).Steady _ (reconcile runningRequeue ns name) s.objects _ :=
    Host.steady_reconcile ho runningRequeue ns name
  exact hsteady.ended s rfl (.error e) s' hrun

/-- The error of a reconcile that fails. -/
def error? : Ending (Except Error Outcome) → Option Error
  | .done (.error e) => some e
  | _ => none

theorem exists_of_error? {r : Ending (Except Error Outcome)} {e : Error} (h : error? r = some e) :
    ∃ e, r = .done (.error e) := by
  rcases r with (e | _) | _ | _ <;> cases h
  exact ⟨e, rfl⟩

/-- A driver that leaves is recorded, owned and let go. If the last patch fails, it is not because
of the one before. -/
theorem never_conflicts_with_itself_leaving :
    let S := Server.serving Sources.historical.info?
    let F : Server :=
      { S with fate := fun n => if n = 5 then .refused (.api 500 "InternalError" "") else .served }
    outcome? (S.run (reconcile .ten "spark" "driver") ⟨.leaving, []⟩).1 = some .noRequeue ∧
      (S.run (reconcile .ten "spark" "driver") ⟨.leaving, []⟩).2.said.map (·.question.isWrite) =
        [false, false, false, true, true, true] ∧
      ∃ e, (F.run (reconcile .ten "spark" "driver") ⟨.leaving, []⟩).1 = .done (.error e) ∧
        e.isConflict = false := by
  intro S F
  have hF : F.Impartial := by
    intro n error h
    by_cases hn : n = 5
    · simp only [F, hn, if_true] at h
      rcases h with h | h <;> cases h
      rfl
    · simp [F, hn] at h
  have hfailed : error? (F.run (reconcile .ten "spark" "driver") ⟨.leaving, []⟩).1 =
      some (.finalizer (.api (.api 500 "InternalError" ""))) := by decide +kernel
  obtain ⟨e, hrun⟩ : ∃ e, (F.run (reconcile .ten "spark" "driver") ⟨.leaving, []⟩).1 =
      .done (.error e) := exists_of_error? hfailed
  exact ⟨by decide +kernel, by decide +kernel, e, hrun,
    never_conflicts_with_itself hF Objects.sound_leaving.filed hrun⟩

end SparkLedger.Tracker

import SparkLedger.Proofs.Tracker.Requests
import SparkLedger.Proofs.Tracker.World

/-!
# The order of requests

What a reconcile requests of the cluster, one request after the other and whatever the cluster
answers, and what becomes of it when a request fails. A fetch goes to the Spark API and is no
request of this kind.

* `InTurn`: what may be requested after which requests, and how a failure of it is reported.
* `Work.Obeys`: every request of a part of the work is in turn, and ends the work if it fails.
  `Work.Obeys.bind`: the turns of one part after the other.
* `obeys_reconcile`: the turns of a reconcile.
* `requests_in_turn`: what is requested, and what follows from a failure.
-/

namespace SparkLedger.Tracker

open Dialogue (Transcript Exchange asks_run_bind ends_run_bind_error)
open Pod (Role)

variable {α β : Type}

/-! ## Requests -/

/-- Whether a question goes to the cluster. -/
def Question.isRequest : Question → Bool
  | .info .. => false
  | _ => true

/-- The requests among the exchanges, with their answers. -/
def requests (t : Transcript Tracking) : Transcript Tracking :=
  t.filter fun e => Question.isRequest e.question

@[simp] theorem requests_append (t t' : Transcript Tracking) :
    requests (t ++ t') = requests t ++ requests t' := List.filter_append ..

theorem Question.isRequest_of_isWrite {q : Question} (h : q.isWrite = true) :
    q.isRequest = true := by
  cases q with
  | info => cases h
  | _ => rfl

theorem StoreError.isConflict_ofKube_iff {error : Kube.Error} :
    (ofKube error).isConflict = true ↔ ∃ reason message, error = .api 409 reason message := by
  cases error with
  | api code reason message =>
    by_cases hcode : code = 409 <;> simp [ofKube, hcode, isConflict]
  | _ => simp [ofKube, isConflict]

/-! ## Turns -/

/-- What may be requested after some requests, and how a failure of it is reported. -/
abbrev Turns := Transcript Tracking → (StoreError → Error) → Question → Prop

/-- The exchanges with which a pod in a role is recorded: a write that was accepted, or none if
there is nothing to change. -/
inductive Written (existing : Option Application) (role : Role) : Transcript Tracking → Prop where
  | kept (hexisting : existing.isSome = true) : Written existing role []
  | wrote {new a : Application} {e : Exchange Tracking} {place : String × String}
      (hrole : existing = none → role = .driver) (hwrite : IsWriteOf existing new e.question)
      (hanswer : Exchange.Writes place a e) : Written existing role [e]

/-- The exchanges with which a pod in a role gets its owner, and the pod as it is stored then. -/
inductive Owned (pod : Pod) : Role → Transcript Tracking → Pod → Prop where
  | kept (role : Role) : Owned pod role [] pod
  | owned {pod' : Pod} {reference : Object.OwnerReference} {e : Exchange Tracking}
      (hfree : hasOwners pod = false)
      (hpatch : IsPatchOf pod { pod with metadata.ownerReferences := some [reference] } e.question)
      (hanswer : podOf? e = some pod') : Owned pod .driver [e] pod'

/-- What a reconcile may request after some requests, and how a failure of it is reported. -/
inductive InTurn (ns name : String) : Turns where
  | readPod : InTurn ns name [] .store (.getPod ns name)
  | hold {pod : Pod} {applicationId : String} {role : Role} {q : Question}
      (hmember : pod.member? = some (applicationId, role)) (hlive : pod.isDeleting = false)
      (hfree : pod.isTracked = false) (hpatch : IsPatchOf pod pod.tracked q) :
    InTurn ns name [⟨.getPod ns name, (.ok (some pod) : Except Kube.Error (Option Pod))⟩]
      .finalizer q
  | readRecord {pod : Pod} {applicationId : String} {role : Role}
      (hmember : pod.member? = some (applicationId, role))
      (hheld : pod.isDeleting = true ∨ pod.isTracked = true) :
    InTurn ns name [⟨.getPod ns name, (.ok (some pod) : Except Kube.Error (Option Pod))⟩]
      .store (.getApplication ns applicationId)
  /-- The record of the application is gone. -/
  | cascade {pod : Pod} {applicationId : String} {role : Role} {q : Question}
      (hmember : pod.member? = some (applicationId, role)) (hdeleting : pod.isDeleting = true)
      (hgoes : goesWithRecord pod applicationId role = true) (htracked : pod.isTracked = true)
      (hpatch : IsPatchOf pod pod.released q) :
    InTurn ns name (opening ns name pod applicationId none) .finalizer q
  | write {pod : Pod} {applicationId : String} {role : Role} {existing : Option Application}
      {new : Application} {q : Question} (hmember : pod.member? = some (applicationId, role))
      (hheld : pod.isDeleting = true ∨ pod.isTracked = true)
      (hrole : existing = none → role = .driver) (hwrite : IsWriteOf existing new q) :
    InTurn ns name (opening ns name pod applicationId existing) .store q
  | own {pod : Pod} {applicationId : String} {existing : Option Application}
      {t : Transcript Tracking} {reference : Object.OwnerReference} {q : Question}
      (hmember : pod.member? = some (applicationId, .driver))
      (hheld : pod.isDeleting = true ∨ pod.isTracked = true)
      (hwritten : Written existing .driver t) (hfree : hasOwners pod = false)
      (hpatch : IsPatchOf pod { pod with metadata.ownerReferences := some [reference] } q) :
    InTurn ns name (opening ns name pod applicationId existing ++ t) .ownerReference q
  | release {pod pod' : Pod} {applicationId : String} {role : Role}
      {existing : Option Application} {t t' : Transcript Tracking} {q : Question}
      (hmember : pod.member? = some (applicationId, role))
      (hheld : pod.isDeleting = true ∨ pod.isTracked = true)
      (hwritten : Written existing role t) (howned : Owned pod role t' pod')
      (hdeleting : pod'.isDeleting = true) (htracked : pod'.isTracked = true)
      (hpatch : IsPatchOf pod' pod'.released q) :
    InTurn ns name (opening ns name pod applicationId existing ++ t ++ t') .finalizer q

theorem InTurn.isConflict_eq {ns name : String} {t : Transcript Tracking}
    {cause : StoreError → Error} {q : Question} (h : InTurn ns name t cause q) (s : StoreError) :
    (cause s).isConflict = s.isConflict := by
  cases h <;> rfl

/-- The creation of a record that fails is reported as such. -/
theorem InTurn.eq_store {ns name ns' : String} {t : Transcript Tracking}
    {cause : StoreError → Error} {application : Application}
    (h : InTurn ns name t cause (.createApplication ns' application)) : cause = .store := by
  cases h with
  | write => rfl
  | hold _ _ _ hpatch => exact hpatch.elim
  | cascade _ _ _ _ hpatch => exact hpatch.elim
  | own _ _ _ _ hpatch => exact hpatch.elim
  | release _ _ _ _ _ _ hpatch => exact hpatch.elim

/-! ## Work that keeps to its turns -/

namespace Work

/-- Every request of the work is in turn after those before it, and ends the work if it fails.
Nothing else is a conflict. -/
structure Obeys (x : Work α) (turns : Turns) : Prop where
  asks : ∀ (t : Transcript Tracking) (q : Question), q.isRequest = true → x.run.Asks t q →
    ∃ cause, turns (requests t) cause q ∧
      ∀ error, x.run.Ends (t ++ [⟨q, q.failed error⟩]) (.error (cause (.ofKube error)))
  conflicts : ∀ (t : Transcript Tracking) (e : Error), x.run.Ends t (.error e) →
    e.isConflict = true → ∃ (t' : Transcript Tracking) (q : Question) (error : Kube.Error),
      q.isRequest = true ∧ t = t' ++ [⟨q, q.failed error⟩] ∧
        (StoreError.ofKube error).isConflict = true

variable {turns : Turns}

theorem Obeys.bind {x : Work α} {f : α → Work β} (hx : x.Obeys turns)
    (hf : ∀ t a, x.run.Ends t (.ok a) → (f a).Obeys fun t' => turns (requests t ++ t')) :
    (x >>= f).Obeys turns where
  asks t q hq h := by
    rcases asks_run_bind.1 h with h | ⟨t₁, t₂, a, rfl, ha, h⟩
    · obtain ⟨cause, hturn, hfails⟩ := hx.asks t q hq h
      exact ⟨cause, hturn, fun error => ends_run_bind_error.2 (.inl (hfails error))⟩
    · obtain ⟨cause, hturn, hfails⟩ := (hf t₁ a ha).asks t₂ q hq h
      refine ⟨cause, by rwa [requests_append], fun error => ?_⟩
      exact ends_run_bind_error.2 (.inr ⟨t₁, _, a, List.append_assoc .., ha, hfails error⟩)
  conflicts t e h he := by
    rcases ends_run_bind_error.1 h with h | ⟨t₁, t₂, a, rfl, ha, h⟩
    · exact hx.conflicts t e h he
    · obtain ⟨t', q, error, hq, rfl, hconflict⟩ := (hf t₁ a ha).conflicts t₂ e h he
      exact ⟨t₁ ++ t', q, error, hq, (List.append_assoc ..).symm, hconflict⟩

/-- Work that requests nothing. -/
theorem Obeys.of_silent {x : Work α}
    (hasks : ∀ (t : Transcript Tracking) (q : Question), x.run.Asks t q → q.isRequest = false)
    (hends : ∀ (t : Transcript Tracking) (e : Error), x.run.Ends t (.error e) →
      e.isConflict = false) : x.Obeys turns where
  asks t q hq h := by cases hq.symm.trans (hasks t q h)
  conflicts t e h he := by cases he.symm.trans (hends t e h)

theorem obeys_pure (a : α) : (pure a : Work α).Obeys turns :=
  .of_silent (fun _ _ h => h.elim) fun _ _ h => nomatch h.2

theorem obeys_log_bind {level : Log.Level} {text : String} {f : Unit → Work β}
    (h : (f ()).Obeys turns) : (log level text >>= f).Obeys turns where
  asks := h.asks
  conflicts := h.conflicts

/-- The failure of a guard is no conflict. -/
theorem obeys_orFail_bind {e : Error} {o : Option α} {f : α → Work β} (he : e.isConflict = false)
    (h : ∀ a, o = some a → (f a).Obeys turns) : (orFail e o >>= f).Obeys turns := by
  cases o with
  | none =>
    refine .of_silent (fun _ _ h => h.elim) fun _ e' h' => ?_
    cases h'.2
    exact he
  | some a =>
    have ha := h a rfl
    exact ⟨ha.asks, ha.conflicts⟩

/-- A read or a write that makes one request or none, and reports how it fails. -/
theorem obeys_store {cause : StoreError → Error} {d : Dialogue Tracking (Except StoreError α)}
    (hcause : ∀ s, (cause s).isConflict = s.isConflict)
    (hasks : ∀ (t : Transcript Tracking) (q : Question), d.Asks t q → t = [] ∧ turns [] cause q ∧
      ∀ error, d.Ends [⟨q, q.failed error⟩] (.error (.ofKube error)))
    (hends : ∀ (t : Transcript Tracking) (s : StoreError), d.Ends t (.error s) →
      s = .missingMetadata ∨ ∃ (q : Question) (error : Kube.Error), q.isRequest = true ∧
        t = [⟨q, q.failed error⟩] ∧ s = .ofKube error) : (store cause d).Obeys turns where
  asks t q _ h := by
    obtain ⟨rfl, hturn, hfails⟩ := hasks t q (asks_store.1 h)
    exact ⟨cause, hturn, fun error => ends_store_error.2 ⟨_, hfails error, rfl⟩⟩
  conflicts t e h he := by
    obtain ⟨s, hs, rfl⟩ := ends_store_error.1 h
    rw [hcause] at he
    rcases hends t s hs with rfl | ⟨q, error, hq, rfl, rfl⟩
    · cases he
    · exact ⟨[], q, error, hq, rfl, he⟩

end Work

/-! ## Reads and writes -/

section

open Work (Obeys obeys_store)

variable {turns : Turns} {ns name : String}

theorem obeys_getPod (h : turns [] .store (.getPod ns name)) :
    (Work.store .store (getPod ns name)).Obeys turns := by
  refine obeys_store (fun _ => rfl) (fun t q hasks => ?_) fun t s hends => ?_
  · obtain ⟨rfl, rfl⟩ := asks_getPod.1 hasks
    exact ⟨rfl, h, fun error => ends_getPod.2 ⟨.error error, rfl, rfl⟩⟩
  · obtain ⟨a, rfl, ha⟩ := ends_getPod.1 hends
    obtain ⟨error, rfl, rfl⟩ := error_eq_mapError_iff.1 ha
    exact .inr ⟨_, error, rfl, rfl, rfl⟩

theorem obeys_getApplication (h : turns [] .store (.getApplication ns name)) :
    (Work.store .store (getApplication ns name)).Obeys turns := by
  refine obeys_store (fun _ => rfl) (fun t q hasks => ?_) fun t s hends => ?_
  · obtain ⟨rfl, rfl⟩ := asks_getApplication.1 hasks
    exact ⟨rfl, h, fun error => ends_getApplication.2 ⟨.error error, rfl, rfl⟩⟩
  · obtain ⟨a, rfl, ha⟩ := ends_getApplication.1 hends
    obtain ⟨error, rfl, rfl⟩ := error_eq_mapError_iff.1 ha
    exact .inr ⟨_, error, rfl, rfl, rfl⟩

theorem obeys_createApplication {application : Application}
    (h : ∀ q, IsWriteOf none application q → turns [] .store q) :
    (Work.store .store (createApplication application)).Obeys turns := by
  refine obeys_store (fun _ => rfl) (fun t q hasks => ?_) fun t s hends => ?_
  · obtain ⟨ns, name, hplace, rfl, rfl⟩ := asks_createApplication.1 hasks
    refine ⟨rfl, h _ ⟨rfl, rfl, name, hplace⟩, fun error => ends_createApplication.2 (.inr ?_)⟩
    exact ⟨ns, name, .error error, hplace, rfl, rfl⟩
  · rcases ends_createApplication.1 hends with ⟨-, -, hs⟩ | ⟨ns, name, a, -, rfl, ha⟩
    · cases hs
      exact .inl rfl
    · obtain ⟨error, rfl, rfl⟩ := error_eq_mapError_iff.1 ha
      exact .inr ⟨_, error, rfl, rfl, rfl⟩

/-- A change makes one request or none. -/
theorem obeys_patchWith [Object.Resource α] {cause : StoreError → Error}
    {request : String → String → Json → Question} {old new : α}
    {send : String → String → Json → Dialogue Tracking (Except Kube.Error α)}
    (hcause : ∀ s, (cause s).isConflict = s.isConflict)
    (hrequest : ∀ ns name p, (request ns name p).isRequest = true)
    (hasks : ∀ ns name p t q, (send ns name p).Asks t q → t = [] ∧ q = request ns name p)
    (hends : ∀ ns name p t error, (send ns name p).Ends t (.error error) ↔
      t = [⟨request ns name p, (request ns name p).failed error⟩])
    (h : ∀ ns name p, (Object.Resource.metadata old).identity? = some (ns, name) →
      Object.conditionalPatch? old new = some p → turns [] cause (request ns name p)) :
    (Work.store cause (patchWith send old new)).Obeys turns := by
  refine obeys_store hcause (fun t q hq => ?_) fun t s hs => ?_
  · obtain ⟨ns, name, p, hplace, hp, hq⟩ := asks_patchWith.1 hq
    obtain ⟨rfl, rfl⟩ := hasks _ _ _ _ _ hq
    refine ⟨rfl, h ns name p hplace hp, fun error => ends_patchWith.2 (.inr (.inr ?_))⟩
    exact ⟨ns, name, p, .error error, hplace, hp, (hends ..).2 rfl, rfl⟩
  · rcases ends_patchWith.1 hs with ⟨-, -, h⟩ | ⟨_, _, -, -, -, h⟩ | ⟨ns, name, p, a, -, -, ha, h⟩
    · cases h
      exact .inl rfl
    · cases h
    · obtain ⟨error, rfl, rfl⟩ := error_eq_mapError_iff.1 h
      exact .inr ⟨_, error, hrequest ns name p, (hends ..).1 ha, rfl⟩

theorem obeys_patchPod {cause : StoreError → Error} {old new : Pod}
    (hcause : ∀ s, (cause s).isConflict = s.isConflict)
    (h : ∀ q, IsPatchOf old new q → turns [] cause q) :
    (Work.store cause (patchPod old new)).Obeys turns :=
  obeys_patchWith hcause (fun _ _ _ => rfl) (fun _ _ _ _ _ => Dialogue.asks_question.1)
    (fun _ _ _ _ _ => Dialogue.ends_question) fun _ _ _ hplace hp => h _ ⟨hplace, hp⟩

theorem obeys_patchApplication {stored new : Application}
    (h : ∀ q, IsWriteOf (some stored) new q → turns [] .store q) :
    (Work.store .store (patchApplication stored new)).Obeys turns :=
  obeys_patchWith (fun _ => rfl) (fun _ _ _ => rfl) (fun _ _ _ _ _ => Dialogue.asks_question.1)
    (fun _ _ _ _ _ => Dialogue.ends_question) fun _ _ _ hplace hp =>
      h _ ⟨stored, rfl, hplace, hp⟩

/-! ## Pods -/

variable {pod pod' : Pod} {applicationId : String} {existing : Option Application} {role : Role}
  {runningRequeue : Seconds} {t : Transcript Tracking}

theorem requests_written (h : Written existing role t) : requests t = t := by
  cases h with
  | kept => rfl
  | wrote _ _ hanswer => cases hanswer <;> rfl

theorem requests_owned (h : Owned pod role t pod') : requests t = t := by
  cases h with
  | kept => rfl
  | @owned _ _ e _ hpatch =>
    obtain ⟨q, a⟩ := e
    cases q with
    | patchPod => rfl
    | _ => exact hpatch.elim

theorem obeys_trackExecutor
    (h : ∀ new q, existing ≠ none → IsWriteOf existing new q → turns [] .store q) :
    (trackExecutor pod applicationId existing).Obeys turns := by
  refine Work.obeys_orFail_bind rfl fun uid _ => ?_
  refine Work.obeys_orFail_bind rfl fun stored hstored => ?_
  subst hstored
  refine (obeys_patchApplication fun q hq => h _ q nofun hq).bind fun _ _ _ => ?_
  exact Work.obeys_pure _

theorem obeys_recordInfo {spec : Application.Spec} :
    (recordInfo pod applicationId spec).Obeys turns := by
  refine .of_silent (fun t q hq => ?_) fun t e he => ?_
  · obtain ⟨-, rfl⟩ := asks_recordInfo hq
    rfl
  · rcases ends_run_bind_error.1 he with h | ⟨_, _, r, rfl, -, h⟩
    · obtain ⟨_, -, hr⟩ := Work.ends_info.1 h
      cases hr
    · cases r with
      | ok info =>
        obtain ⟨_, -, h⟩ := Work.ends_checked_bind.1 h
        cases h.2
      | error error => cases (Work.ends_log_bind.1 h).2

theorem obeys_writeApplication {application : Application}
    (h : ∀ q, IsWriteOf existing application q → turns [] .store q) :
    (writeApplication existing application).Obeys turns := by
  cases existing with
  | some stored => exact obeys_patchApplication h
  | none => exact obeys_createApplication h

theorem obeys_ownDriver {heritage : Application.Heritage} {application : Application}
    (h : ∀ reference q, hasOwners pod = false →
      IsPatchOf pod { pod with metadata.ownerReferences := some [reference] } q →
        turns [] .ownerReference q) :
    (ownDriver pod applicationId heritage application).Obeys turns := by
  unfold ownDriver
  split
  · rename_i hfree
    rw [Bool.and_eq_true, Bool.not_eq_true'] at hfree
    split
    · refine (obeys_patchPod (fun _ => rfl) fun q hq => h _ q hfree.2 hq).bind fun _ _ _ => ?_
      exact Work.obeys_log_bind (Work.obeys_pure _)
    · exact Work.obeys_pure _
  · exact Work.obeys_pure _

/-- A write that was accepted, or that was not needed. -/
theorem written_of_ends {application a : Application}
    (h : (writeApplication existing application).run.Ends t (.ok a)) :
    Written existing .driver t := by
  rcases ends_writeApplication_ok h with ⟨rfl, -, rfl⟩ | ⟨e, place, rfl, hwrite, hanswer⟩
  · exact .kept rfl
  · exact .wrote (fun _ => rfl) hwrite hanswer

theorem owned_of_ends {heritage : Application.Heritage} {application : Application}
    (h : (ownDriver pod applicationId heritage application).run.Ends t (.ok pod')) :
    Owned pod .driver t pod' := by
  rcases ends_ownDriver_ok h with ⟨rfl, rfl, -⟩ | ⟨reference, -, hfree, -, hpatch⟩
  · exact .kept .driver
  · obtain ⟨ns, name, hplace, ⟨-, rfl, rfl⟩ | ⟨p, hp, rfl⟩⟩ := ends_patchPod_ok.1 hpatch
    · exact .kept .driver
    · exact .owned hfree ⟨hplace, hp⟩ rfl

theorem obeys_trackDriver
    (hwrite : ∀ new q, IsWriteOf existing new q → turns [] .store q)
    (hown : ∀ t reference q, Written existing .driver t → hasOwners pod = false →
      IsPatchOf pod { pod with metadata.ownerReferences := some [reference] } q →
        turns t .ownerReference q) :
    (trackDriver runningRequeue pod applicationId existing).Obeys turns := by
  refine Work.obeys_orFail_bind rfl fun (ns, name) _ => ?_
  refine Work.obeys_orFail_bind rfl fun heritage _ => ?_
  refine obeys_recordInfo.bind fun t (spec, failure) hinfo => ?_
  obtain ⟨r, rfl, -⟩ := ends_recordInfo_ok hinfo
  refine (obeys_writeApplication fun q hq => hwrite _ q hq).bind fun t stored hstored => ?_
  have hwritten := written_of_ends hstored
  rw [requests_written hwritten]
  refine (obeys_ownDriver fun reference q hfree hq => ?_).bind fun _ pod' _ => ?_
  · rw [List.append_nil]
    exact hown t reference q hwritten hfree hq
  · dsimp only
    split <;> exact Work.obeys_pure _

theorem obeys_release
    (h : pod.isTracked = true → ∀ q, IsPatchOf pod pod.released q → turns [] .finalizer q) :
    (release pod).Obeys turns := by
  unfold release
  split
  · rename_i htracked
    exact (obeys_patchPod (fun _ => rfl) (h htracked)).bind fun _ _ _ => Work.obeys_pure _
  · exact Work.obeys_pure _

theorem obeys_track
    (hwrite : ∀ new q, (existing = none → role = .driver) → IsWriteOf existing new q →
      turns [] .store q)
    (hown : role = .driver → ∀ t reference q, Written existing .driver t → hasOwners pod = false →
      IsPatchOf pod { pod with metadata.ownerReferences := some [reference] } q →
        turns t .ownerReference q) :
    (track runningRequeue pod applicationId existing role).Obeys turns := by
  cases role with
  | driver => exact obeys_trackDriver (fun new q => hwrite new q fun _ => rfl) (hown rfl)
  | executor =>
    refine (obeys_trackExecutor fun new q hne => hwrite new q fun h => absurd h hne).bind ?_
    exact fun _ _ _ => Work.obeys_pure _

/-- What is requested while a pod is recorded. -/
theorem written_of_track {outcome : Outcome}
    (h : (track runningRequeue pod applicationId existing role).run.Ends t (.ok (outcome, pod'))) :
    ∃ t₁ t₂, requests t = t₁ ++ t₂ ∧ Written existing role t₁ ∧ Owned pod role t₂ pod' := by
  rcases ends_track_ok h with ⟨rfl, rfl, htrack⟩ | ⟨rfl, htrack⟩
  · obtain ⟨uid, stored, ns, name, -, rfl, hplace, ⟨-, rfl⟩ | ⟨p, a, hp, rfl⟩⟩ :=
      ends_trackExecutor_ok htrack
    · exact ⟨[], [], rfl, .kept rfl, .kept _⟩
    · have hanswer := @Exchange.Writes.patch (ns, name) a p
      exact ⟨_, [], rfl, .wrote nofun ⟨stored, rfl, hplace, hp⟩ hanswer, .kept _⟩
  · obtain ⟨start, heritage, r, spec, t₁, t₂, stored, rfl, -, hwrite, hown⟩ :=
      ends_trackDriver_ok htrack
    have hwritten := written_of_ends hwrite
    have howned := owned_of_ends hown
    refine ⟨t₁, t₂, ?_, hwritten, howned⟩
    change requests (t₁ ++ t₂) = _
    rw [requests_append, requests_written hwritten, requests_owned howned]

theorem obeys_reconcileTracked (hmember : pod.member? = some (applicationId, role))
    (hheld : pod.isDeleting = true ∨ pod.isTracked = true) :
    (reconcileTracked runningRequeue ns name pod applicationId role).Obeys fun t =>
      InTurn ns name
        (⟨.getPod ns name, (.ok (some pod) : Except Kube.Error (Option Pod))⟩ :: t) := by
  refine (obeys_getApplication (.readRecord hmember hheld)).bind fun t existing hget => ?_
  obtain ⟨a, rfl, ha⟩ := ends_getApplication.1 (Work.ends_store_ok.1 hget)
  cases ok_eq_mapError_iff.1 ha
  split
  · rename_i hgone
    rw [Bool.and_eq_true, Bool.and_eq_true, Option.isNone_iff_eq_none] at hgone
    obtain ⟨⟨rfl, hdeleting⟩, hgoes⟩ := hgone
    refine Work.obeys_log_bind ((obeys_release fun htracked q hq => ?_).bind fun _ _ _ =>
      Work.obeys_pure _)
    exact .cascade hmember hdeleting hgoes htracked hq
  · refine (obeys_track ?_ ?_).bind fun t (outcome, pod') htrack => ?_
    · exact fun new q hrole hq => .write hmember hheld hrole hq
    · rintro rfl t reference q hwritten hfree hq
      exact .own hmember hheld hwritten hfree hq
    · obtain ⟨t₁, t₂, ht, hwritten, howned⟩ := written_of_track htrack
      dsimp only
      split
      · rename_i hdeleting
        rw [Bool.and_eq_true] at hdeleting
        rw [ht]
        refine (obeys_release fun htracked q hq => ?_).bind fun _ _ _ =>
          Work.obeys_log_bind (Work.obeys_pure _)
        have hturn : InTurn ns name _ _ q :=
          .release hmember hheld hwritten howned hdeleting.1 htracked hq
        rw [List.append_nil]
        rwa [List.append_assoc] at hturn
      · exact Work.obeys_pure _

/-- Every request of a reconcile is in turn. -/
theorem obeys_reconcile : (reconcile runningRequeue ns name).Obeys (InTurn ns name) := by
  refine (obeys_getPod .readPod).bind fun t pod? hget => ?_
  obtain ⟨a, rfl, ha⟩ := ends_getPod.1 (Work.ends_store_ok.1 hget)
  cases ok_eq_mapError_iff.1 ha
  split
  · exact Work.obeys_log_bind (Work.obeys_pure _)
  split
  · exact Work.obeys_pure _
  · exact Work.obeys_log_bind (Work.obeys_pure _)
  rename_i pod applicationId hempty hlabel
  split
  · exact Work.obeys_log_bind (Work.obeys_pure _)
  rename_i role hrole
  have hmember := Pod.member?_eq_some_iff.2 ⟨hlabel, hempty, hrole⟩
  unfold reconcileMember
  split
  · rename_i hfree
    rw [Bool.and_eq_true, Bool.not_eq_true', Bool.not_eq_true'] at hfree
    refine (obeys_patchPod (fun _ => rfl) fun q hq => ?_).bind fun _ _ _ =>
      Work.obeys_log_bind (Work.obeys_pure _)
    exact .hold hmember hfree.1 hfree.2 hq
  · rename_i hheld
    refine obeys_reconcileTracked hmember ?_
    by_contra hnot
    rw [not_or, Bool.not_eq_true, Bool.not_eq_true] at hnot
    exact hheld (by rw [hnot.1, hnot.2]; rfl)

/-- When a pod is looked at again after a failure. -/
theorem Error.action_eq (e : Error) : ∃ delay : Seconds, e.action = .requeue delay ∧
    delay.val = if e.isConflict then 1 else 10 := by
  refine ⟨_, rfl, ?_⟩
  cases e.isConflict <;> rfl

/-- A reconcile requests nothing out of turn. A request that fails is its last question, and the
reconcile fails for what the request was for. It fails with a conflict, and is tried again soon, if
and only if its last request was answered with the code 409. -/
theorem requests_in_turn (runningRequeue : Seconds) (ns name : String) :
    (∀ (t : Transcript Tracking) (q : Question), q.isRequest = true →
      (reconcile runningRequeue ns name).run.Asks t q →
      ∃ cause, InTurn ns name (requests t) cause q ∧ ∀ error : Kube.Error,
        (reconcile runningRequeue ns name).run.Ends (t ++ [⟨q, q.failed error⟩])
          (.error (cause (.ofKube error))) ∧
        (∀ t' q', ¬(reconcile runningRequeue ns name).run.Asks
          (t ++ [⟨q, q.failed error⟩] ++ t') q') ∧
        ((cause (.ofKube error)).isConflict = true ↔
          ∃ reason message, error = .api 409 reason message)) ∧
    ∀ (t : Transcript Tracking) (e : Error),
      (reconcile runningRequeue ns name).run.Ends t (.error e) →
      (e.isConflict = true ↔ ∃ (t' : Transcript Tracking) (q : Question) (reason message : String),
        q.isRequest = true ∧ t = t' ++ [⟨q, q.failed (.api 409 reason message)⟩]) ∧
      ∃ delay : Seconds, e.action = .requeue delay ∧
        delay.val = if e.isConflict then 1 else 10 := by
  have hobeys : (reconcile runningRequeue ns name).Obeys (InTurn ns name) := obeys_reconcile
  refine ⟨fun t q hq hasks => ?_, fun t e hends => ⟨⟨fun he => ?_, ?_⟩, e.action_eq⟩⟩
  · obtain ⟨cause, hturn, hfails⟩ := hobeys.asks t q hq hasks
    refine ⟨cause, hturn, fun error => ⟨hfails error, fun t' q' => ?_, ?_⟩⟩
    · exact Dialogue.not_asks_of_ends (hfails error)
    · rw [hturn.isConflict_eq]
      exact StoreError.isConflict_ofKube_iff
  · obtain ⟨t', q, error, hq, rfl, hconflict⟩ := hobeys.conflicts t e hends he
    obtain ⟨reason, message, rfl⟩ := StoreError.isConflict_ofKube_iff.1 hconflict
    exact ⟨t', q, reason, message, hq, rfl⟩
  · rintro ⟨t', q, reason, message, hq, rfl⟩
    obtain ⟨cause, hturn, hfails⟩ := hobeys.asks t' q hq (Dialogue.asks_of_ends hends)
    cases Dialogue.eq_of_ends hends (hfails _)
    rw [hturn.isConflict_eq]
    exact StoreError.isConflict_ofKube_iff.2 ⟨reason, message, rfl⟩

/-! A driver's fetch fails, which ends nothing. Then somebody else creates the record first. -/

section

open Setup (pairPod pairRead)

/-- What a driver's reconcile has exchanged before it creates the record. -/
def unfetchedDriver : Transcript Tracking :=
  [pairRead "driver",
    ⟨.getApplication "spark" "app", (.ok none : Except Kube.Error (Option Application))⟩,
    ⟨.info (pairPod "driver") "app" none, (.error .noClient : Except Info.Error Info)⟩]

theorem requests_in_turn_overtaken :
    ∃ (application : Application) (e : Error),
      InTurn "spark" "driver" (requests unfetchedDriver) .store
        (.createApplication "spark" application) ∧
      (reconcile .ten "spark" "driver").run.Ends (unfetchedDriver ++
        [⟨.createApplication "spark" application,
          (.error (.api 409 "AlreadyExists" "") : Except Kube.Error Application)⟩]) (.error e) ∧
      e = .store (.conflict "") ∧ e.isConflict = true ∧
      ∃ delay : Seconds, e.action = .requeue delay ∧ delay.val = 1 := by
  have hcreates : ∃ application : Application, (reconcile .ten "spark" "driver").run.Asks
      unfetchedDriver (.createApplication "spark" application) :=
    ⟨_, .inr ⟨_, _, rfl, .inr ⟨_, _, rfl, .inr ⟨_, _, rfl, .inl ⟨rfl, rfl⟩⟩⟩⟩⟩
  obtain ⟨application, hasks⟩ := hcreates
  obtain ⟨hrequests, hends⟩ := requests_in_turn .ten "spark" "driver"
  obtain ⟨cause, hturn, hfails⟩ := hrequests unfetchedDriver _ rfl hasks
  obtain ⟨hfailed, -, hconflict⟩ := hfails (.api 409 "AlreadyExists" "")
  cases hturn.eq_store
  have he := hconflict.2 ⟨_, _, rfl⟩
  obtain ⟨-, delay, haction, hdelay⟩ := hends _ _ hfailed
  rw [he] at hdelay
  exact ⟨application, _, hturn, hfailed, rfl, he, delay, haction, hdelay⟩

end

end

end SparkLedger.Tracker

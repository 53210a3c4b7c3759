import SparkLedger.Proofs.Tracker.Requests

/-!
# How a reconcile fails

A reconcile has more ways to fail than it can take. Of the pods and records that the cluster shows
it none lacks its name, and a driver whose labels name an application has a heritage. What is left
are requests that were refused, and the executor that comes before its record.

* `Exchange.IsWhole`: answers whose objects have their names.
* `Error.IsRefusal`: the failures for which a request was refused.
* `Work.Reliable`: work that fails for nothing else. `Work.Reliable.bind`: one part after the other.
* `ends_reconcile_error`: how a reconcile fails.
* `fails_only_as_intended`: the failures that never occur, and when no record is found.
-/

namespace SparkLedger

namespace Pod

theorem Role.ofName?_eq_some_iff {s : String} {role : Role} :
    ofName? s = some role ↔ s = role.name := by
  constructor
  · intro h
    unfold ofName? at h
    split at h
    · rename_i hs
      cases h
      exact hs
    · split at h
      · rename_i hs
        cases h
        exact hs
      · cases h
  · rintro rfl
    exact ofName?_name role

/-- The labels of a pod of an application tell its heritage. -/
theorem isSome_heritage? {labels : Object.Labels} (h : (labels.find? applicationLabel).isSome) :
    (heritage? labels).isSome = true := by
  unfold heritage?
  split
  · rfl
  · split
    · rfl
    · rw [SortedMap.contains, h]
      rfl

end Pod

namespace Tracker

open Dialogue (Transcript Exchange ends_run_bind_ok ends_run_bind_error)
open Pod (Role)

variable {α β : Type} {t : Transcript Tracking} {ns name applicationId : String} {pod : Pod}
  {existing : Option Application} {runningRequeue : Seconds} {role : Role}

/-! ## Answers -/

/-- The record that an exchange answers. -/
def recordOf? : Exchange Tracking → Option Application
  | ⟨.getApplication .., (.ok a? : Except Kube.Error (Option Application))⟩ => a?
  | ⟨.createApplication .., (.ok a : Except Kube.Error Application)⟩ => some a
  | ⟨.patchApplication .., (.ok a : Except Kube.Error Application)⟩ => some a
  | _ => none

/-- The pod has a namespace, a name and a uid. -/
def IsWholePod (pod : Pod) : Prop :=
  pod.metadata.identity?.isSome = true ∧ pod.metadata.uid.isSome = true

/-- The record has a namespace and a name. -/
def IsWholeRecord (a : Application) : Prop := a.metadata.identity?.isSome = true

/-- An object that is answered has its names. -/
structure Exchange.IsWhole (e : Exchange Tracking) : Prop where
  pod : ∀ pod, podOf? e = some pod → IsWholePod pod
  record : ∀ a, recordOf? e = some a → IsWholeRecord a

/-- All objects that are answered have their names. -/
def Whole (t : Transcript Tracking) : Prop := ∀ e ∈ t, Exchange.IsWhole e

theorem whole_append {t t' : Transcript Tracking} : Whole (t ++ t') ↔ Whole t ∧ Whole t' :=
  List.forall_mem_append

theorem whole_opening (hpod : IsWholePod pod) (hexisting : ∀ a ∈ existing, IsWholeRecord a) :
    Whole (opening ns name pod applicationId existing) := by
  intro e he
  rcases List.mem_cons.1 he with rfl | he
  · refine ⟨fun pod' h => ?_, fun _ h => nomatch h⟩
    cases h
    exact hpod
  · cases List.mem_singleton.1 he
    exact ⟨fun _ h => (nomatch h), hexisting⟩

/-! ## Failures -/

/-- A request was refused. -/
inductive Error.IsRefusal : Error → Prop where
  | store (error : Kube.Error) : IsRefusal (.store (.ofKube error))
  | finalizer (error : Kube.Error) : IsRefusal (.finalizer (.ofKube error))
  | ownerReference (error : Kube.Error) : IsRefusal (.ownerReference (.ofKube error))

/-- An object had no name or no namespace, where it was needed or where it was to be written. -/
def Error.LacksMetadata (e : Error) : Prop :=
  e = .missingMetadata ∨ e = .store .missingMetadata ∨ e = .finalizer .missingMetadata ∨
    e = .ownerReference .missingMetadata

theorem StoreError.ofKube_ne_missingMetadata (error : Kube.Error) :
    ofKube error ≠ .missingMetadata := by
  unfold ofKube
  split
  · split <;> nofun
  · nofun

namespace Error.IsRefusal

variable {e : Error}

theorem not_lacksMetadata (h : e.IsRefusal) : ¬e.LacksMetadata := by
  rcases h with error | error | error
  all_goals
    have hne := StoreError.ofKube_ne_missingMetadata error
    simp [LacksMetadata, hne]

theorem ne_heritage (h : e.IsRefusal) : e ≠ .heritage := by
  cases h <;> nofun

theorem ne_applicationNotFound (h : e.IsRefusal) : e ≠ .applicationNotFound applicationId := by
  cases h <;> nofun

end Error.IsRefusal

/-! ## Reliable work -/

namespace Work

/-- With whole answers the work fails only because a request was refused, and what it comes to
otherwise has a property. -/
structure Reliable (x : Work α) (post : α → Prop) : Prop where
  error : ∀ t e, Whole t → x.run.Ends t (.error e) → e.IsRefusal
  ok : ∀ t a, Whole t → x.run.Ends t (.ok a) → post a

variable {x : Work α} {f : α → Work β} {post : α → Prop} {post₂ : β → Prop}

namespace Reliable

theorem bind (hx : x.Reliable post) (hf : ∀ a, post a → (f a).Reliable post₂) :
    (x >>= f).Reliable post₂ where
  error t e ht h := by
    rcases ends_run_bind_error.1 h with h | ⟨t₁, t₂, a, rfl, ha, h⟩
    · exact hx.error t e ht h
    · obtain ⟨ht₁, ht₂⟩ := whole_append.1 ht
      exact (hf a (hx.ok t₁ a ht₁ ha)).error t₂ e ht₂ h
  ok t b ht h := by
    obtain ⟨t₁, t₂, a, rfl, ha, h⟩ := ends_run_bind_ok.1 h
    obtain ⟨ht₁, ht₂⟩ := whole_append.1 ht
    exact (hf a (hx.ok t₁ a ht₁ ha)).ok t₂ b ht₂ h

theorem mono (h : x.Reliable post) {post' : α → Prop} (hpost : ∀ a, post a → post' a) :
    x.Reliable post' :=
  ⟨h.error, fun t a ht ha => hpost a (h.ok t a ht ha)⟩

end Reliable

theorem reliable_pure {a : α} (h : post a) : (pure a : Work α).Reliable post where
  error _ _ _ h' := nomatch h'.2
  ok _ _ _ h' := by
    obtain ⟨-, ha⟩ := h'
    cases ha
    exact h

theorem reliable_log_bind {level : Log.Level} {text : String} {f : Unit → Work β}
    (h : (f ()).Reliable post₂) : (log level text >>= f).Reliable post₂ := ⟨h.error, h.ok⟩

/-- A guard that holds. -/
theorem reliable_orFail_bind {e : Error} {o : Option α} (ho : o.isSome = true)
    (h : ∀ a, o = some a → (f a).Reliable post₂) : (orFail e o >>= f).Reliable post₂ := by
  obtain ⟨a, rfl⟩ := Option.isSome_iff_exists.1 ho
  exact ⟨(h a rfl).error, (h a rfl).ok⟩

/-- A computation that breaks off does not end. -/
theorem reliable_checked_bind {c : Except Overflow α} (h : ∀ a, c = .ok a → (f a).Reliable post₂) :
    (checked c >>= f).Reliable post₂ where
  error t e ht h' := by
    obtain ⟨a, ha, h'⟩ := ends_checked_bind.1 h'
    exact (h a ha).error t e ht h'
  ok t b ht h' := by
    obtain ⟨a, ha, h'⟩ := ends_checked_bind.1 h'
    exact (h a ha).ok t b ht h'

theorem reliable_info {recorded : Option Ledger} :
    (info pod applicationId recorded).Reliable fun _ => True where
  error t e _ h := by
    obtain ⟨_, -, hr⟩ := ends_info.1 h
    cases hr
  ok _ _ _ _ := trivial

/-- A read or a write that fails only because its request was refused. -/
theorem reliable_store {cause : StoreError → Error} {d : Dialogue Tracking (Except StoreError α)}
    (hcause : ∀ error, (cause (.ofKube error)).IsRefusal)
    (herror : ∀ t s, d.Ends t (.error s) → ∃ error, s = .ofKube error)
    (hok : ∀ t a, Whole t → d.Ends t (.ok a) → post a) : (store cause d).Reliable post where
  error t e _ h := by
    obtain ⟨s, hs, rfl⟩ := ends_store_error.1 h
    obtain ⟨error, rfl⟩ := herror t s hs
    exact hcause error
  ok t a ht h := hok t a ht (ends_store_ok.1 h)

end Work

/-! ## Reads and writes -/

open Work (reliable_store)

theorem reliable_getPod :
    (Work.store .store (getPod ns name)).Reliable fun pod? => ∀ pod ∈ pod?, IsWholePod pod := by
  refine reliable_store .store (fun t s h => ?_) fun t pod? ht h => ?_
  · obtain ⟨a, -, ha⟩ := ends_getPod.1 h
    obtain ⟨error, -, hs⟩ := error_eq_mapError_iff.1 ha
    exact ⟨error, hs⟩
  · obtain ⟨a, rfl, ha⟩ := ends_getPod.1 h
    cases ok_eq_mapError_iff.1 ha
    exact (ht _ List.mem_cons_self).pod

theorem reliable_getApplication :
    (Work.store .store (getApplication ns name)).Reliable fun a? => ∀ a ∈ a?, IsWholeRecord a := by
  refine reliable_store .store (fun t s h => ?_) fun t a? ht h => ?_
  · obtain ⟨a, -, ha⟩ := ends_getApplication.1 h
    obtain ⟨error, -, hs⟩ := error_eq_mapError_iff.1 ha
    exact ⟨error, hs⟩
  · obtain ⟨a, rfl, ha⟩ := ends_getApplication.1 h
    cases ok_eq_mapError_iff.1 ha
    exact (ht _ List.mem_cons_self).record

theorem reliable_createApplication {application : Application} (h : IsWholeRecord application) :
    (Work.store .store (createApplication application)).Reliable IsWholeRecord := by
  refine reliable_store .store (fun t s hs => ?_) fun t a ht ha => ?_
  · rcases ends_createApplication.1 hs with ⟨hnone, -⟩ | ⟨_, _, a, -, -, ha⟩
    · rw [IsWholeRecord, hnone] at h
      cases h
    · obtain ⟨error, -, hs⟩ := error_eq_mapError_iff.1 ha
      exact ⟨error, hs⟩
  · rcases ends_createApplication.1 ha with ⟨-, -, hr⟩ | ⟨_, _, r, -, rfl, hr⟩
    · cases hr
    · cases ok_eq_mapError_iff.1 hr
      exact (ht _ List.mem_cons_self).record a rfl

/-- A change of an object that has its names. -/
theorem reliable_patchWith [Object.Resource α] {cause : StoreError → Error} {old new : α}
    {send : String → String → Json → Dialogue Tracking (Except Kube.Error α)} {post : α → Prop}
    (hcause : ∀ error, (cause (.ofKube error)).IsRefusal)
    (hnamed : (Object.Resource.metadata old).identity?.isSome = true) (hold : post old)
    (hsent : ∀ t ns name p a, Whole t → (send ns name p).Ends t (.ok a) → post a) :
    (Work.store cause (patchWith send old new)).Reliable post := by
  refine reliable_store hcause (fun t s hs => ?_) fun t a ht ha => ?_
  · rcases ends_patchWith.1 hs with ⟨hnone, -⟩ | ⟨_, _, -, -, -, h⟩ | ⟨_, _, _, _, -, -, -, h⟩
    · rw [hnone] at hnamed
      cases hnamed
    · cases h
    · obtain ⟨error, -, hs⟩ := error_eq_mapError_iff.1 h
      exact ⟨error, hs⟩
  · obtain ⟨ns, name, -, ⟨-, -, rfl⟩ | ⟨p, -, h⟩⟩ := ends_patchWith_ok.1 ha
    · exact hold
    · exact hsent t ns name p a ht h

theorem reliable_patchPod {cause : StoreError → Error} {old new : Pod}
    (hcause : ∀ error, (cause (.ofKube error)).IsRefusal) (h : IsWholePod old) :
    (Work.store cause (patchPod old new)).Reliable IsWholePod := by
  refine reliable_patchWith hcause h.1 h fun t ns name p a ht ha => ?_
  cases Dialogue.ends_question.1 ha
  exact (ht _ List.mem_cons_self).pod a rfl

theorem reliable_patchApplication {old new : Application} (h : IsWholeRecord old) :
    (Work.store .store (patchApplication old new)).Reliable IsWholeRecord := by
  refine reliable_patchWith .store h h fun t ns name p a ht ha => ?_
  cases Dialogue.ends_question.1 ha
  exact (ht _ List.mem_cons_self).record a rfl

/-! ## Recording -/

theorem reliable_recordInfo {spec : Application.Spec} :
    (recordInfo pod applicationId spec).Reliable fun _ => True := by
  refine Work.reliable_info.bind fun r _ => ?_
  cases r with
  | ok info => exact Work.reliable_checked_bind fun _ _ => Work.reliable_pure trivial
  | error error => exact Work.reliable_log_bind (Work.reliable_pure trivial)

theorem reliable_writeApplication {application : Application}
    (hexisting : ∀ a ∈ existing, IsWholeRecord a)
    (hnew : existing = none → IsWholeRecord application) :
    (writeApplication existing application).Reliable fun _ => True := by
  cases existing with
  | none => exact (reliable_createApplication (hnew rfl)).mono fun _ _ => trivial
  | some stored => exact (reliable_patchApplication (hexisting stored rfl)).mono fun _ _ => trivial

theorem reliable_ownDriver {heritage : Application.Heritage} {application : Application}
    (hpod : IsWholePod pod) :
    (ownDriver pod applicationId heritage application).Reliable IsWholePod := by
  unfold ownDriver
  split
  · split
    · refine (reliable_patchPod .ownerReference hpod).bind fun stored hstored => ?_
      exact Work.reliable_log_bind (Work.reliable_pure hstored)
    · exact Work.reliable_pure hpod
  · exact Work.reliable_pure hpod

theorem reliable_trackDriver (hpod : IsWholePod pod)
    (hlabel : pod.metadata.label? Pod.applicationLabel = some applicationId)
    (hexisting : ∀ a ∈ existing, IsWholeRecord a) :
    (trackDriver runningRequeue pod applicationId existing).Reliable
      fun result => IsWholePod result.2 := by
  refine Work.reliable_orFail_bind hpod.1 fun ⟨ns, name⟩ _ => ?_
  have hheritage : ∀ spec : Application.Spec, (spec.heritageWith? pod).isSome = true := by
    intro spec
    obtain ⟨labels, hlabels, hid⟩ := Option.bind_eq_some_iff.1 hlabel
    have hfound : (Pod.heritage? pod.labels).isSome = true :=
      Pod.isSome_heritage? (by rw [Pod.labels, hlabels, Option.getD_some, hid]; rfl)
    rw [Application.Spec.heritageWith?]
    cases spec.heritage with
    | none => exact hfound
    | some heritage => rfl
  refine Work.reliable_orFail_bind (hheritage _) fun heritage _ => ?_
  refine reliable_recordInfo.bind fun ⟨spec, failure⟩ _ => ?_
  refine (reliable_writeApplication hexisting fun hnone => ?_).bind fun stored _ => ?_
  · subst hnone
    rfl
  · refine (reliable_ownDriver hpod).bind fun pod' hpod' => ?_
    dsimp only
    split <;> exact Work.reliable_pure hpod'

theorem reliable_trackExecutor {stored : Application} (hpod : IsWholePod pod)
    (hstored : IsWholeRecord stored) :
    (trackExecutor pod applicationId (some stored)).Reliable fun _ => True := by
  refine Work.reliable_orFail_bind hpod.2 fun uid _ => ?_
  refine Work.reliable_orFail_bind rfl fun a ha => ?_
  cases ha
  exact (reliable_patchApplication hstored).bind fun _ _ => Work.reliable_pure trivial

/-- An executor without a record asks for nothing. -/
theorem trackExecutor_none (hpod : IsWholePod pod) :
    trackExecutor pod applicationId none = throw (.applicationNotFound applicationId) := by
  obtain ⟨uid, huid⟩ := Option.isSome_iff_exists.1 hpod.2
  rw [trackExecutor, huid]
  rfl

theorem reliable_track (hpod : IsWholePod pod)
    (hlabel : pod.metadata.label? Pod.applicationLabel = some applicationId)
    (hexisting : ∀ a ∈ existing, IsWholeRecord a)
    (hrole : existing = none → role = .driver) :
    (track runningRequeue pod applicationId existing role).Reliable
      fun result => IsWholePod result.2 := by
  cases role with
  | driver => exact reliable_trackDriver hpod hlabel hexisting
  | executor =>
    cases existing with
    | none => cases hrole rfl
    | some stored =>
      exact (reliable_trackExecutor hpod (hexisting stored rfl)).bind fun _ _ =>
        Work.reliable_pure hpod

theorem reliable_release (hpod : IsWholePod pod) : (release pod).Reliable fun _ => True := by
  unfold release
  split
  · exact (reliable_patchPod .finalizer hpod).bind fun _ _ => Work.reliable_pure trivial
  · exact Work.reliable_pure trivial

/-! ## Reconciles -/

/-- A tracked or deleted pod that is not recorded: a request was refused, or there is no record for
a live executor. -/
theorem ends_reconcileTracked_error {e : Error} (ht : Whole t) (hpod : IsWholePod pod)
    (hlabel : pod.metadata.label? Pod.applicationLabel = some applicationId)
    (h : (reconcileTracked runningRequeue ns name pod applicationId role).run.Ends t
      (.error e)) :
    e.IsRefusal ∨ t = [⟨.getApplication ns applicationId,
        (.ok none : Except Kube.Error (Option Application))⟩] ∧ role = .executor ∧
      pod.isDeleting = false ∧ e = .applicationNotFound applicationId := by
  rcases ends_run_bind_error.1 h with hget | ⟨t₁, t₂, existing, rfl, hget, hrest⟩
  · exact .inl (reliable_getApplication.error t e ht hget)
  obtain ⟨ht₁, ht₂⟩ := whole_append.1 ht
  have hexisting := reliable_getApplication.ok t₁ existing ht₁ hget
  split at hrest
  · refine .inl (@Work.Reliable.error _ _ (fun _ => True) ?_ t₂ e ht₂ hrest)
    exact Work.reliable_log_bind ((reliable_release hpod).bind fun _ _ => Work.reliable_pure trivial)
  rename_i hstays
  by_cases hrole : existing = none → role = .driver
  · refine .inl (@Work.Reliable.error _ _ (fun _ => True) ?_ t₂ e ht₂ hrest)
    refine (reliable_track hpod hlabel hexisting hrole).bind fun ⟨outcome, pod'⟩ hpod' => ?_
    dsimp only
    split
    · refine (reliable_release hpod').bind fun _ _ => ?_
      exact Work.reliable_log_bind (Work.reliable_pure trivial)
    · exact Work.reliable_pure trivial
  · -- Only the record of an executor can be missing, and only while the executor lives.
    obtain ⟨rfl, hexecutor⟩ := Classical.not_imp.1 hrole
    cases role with
    | driver => exact absurd rfl hexecutor
    | executor =>
      rw [track, trackExecutor_none hpod] at hrest
      obtain ⟨rfl, he⟩ := hrest
      cases he
      obtain ⟨a, rfl, ha⟩ := ends_getApplication.1 (Work.ends_store_ok.1 hget)
      cases ok_eq_mapError_iff.1 ha
      refine .inr ⟨List.append_nil _, rfl, ?_, rfl⟩
      simpa [goesWithRecord] using hstays

/-- A live executor that is tracked and has no record. -/
structure Awaits (pod : Pod) (applicationId : String) : Prop where
  label : pod.metadata.label? Pod.applicationLabel = some applicationId
  nonempty : applicationId ≠ ""
  role : pod.metadata.label? Pod.roleLabel = some "executor"
  tracked : pod.isTracked = true
  live : pod.isDeleting = false

theorem Awaits.member?_eq (h : Awaits pod applicationId) :
    pod.member? = some (applicationId, .executor) :=
  Pod.member?_eq_some_iff.2 ⟨h.label, h.nonempty, by rw [h.role]; exact Role.ofName?_name .executor⟩

/-- How a reconcile fails: a request was refused, or there is no record for a live executor. -/
theorem ends_reconcile_error {e : Error} (ht : Whole t)
    (h : (reconcile runningRequeue ns name).run.Ends t (.error e)) :
    e.IsRefusal ∨ ∃ pod applicationId, t = opening ns name pod applicationId none ∧
      Awaits pod applicationId ∧ e = .applicationNotFound applicationId := by
  rcases ends_run_bind_error.1 h with hget | ⟨t₁, t₂, pod?, rfl, hget, hrest⟩
  · exact .inl (reliable_getPod.error t e ht hget)
  obtain ⟨ht₁, ht₂⟩ := whole_append.1 ht
  have hpod := reliable_getPod.ok t₁ pod? ht₁ hget
  obtain ⟨a, rfl, ha⟩ := ends_getPod.1 (Work.ends_store_ok.1 hget)
  cases ok_eq_mapError_iff.1 ha
  split at hrest
  · cases (Work.ends_log_bind.1 hrest).2
  rename_i pod
  have hpod := hpod pod rfl
  split at hrest
  · cases hrest.2
  · cases (Work.ends_log_bind.1 hrest).2
  rename_i applicationId hnonempty hlabel
  split at hrest
  · cases (Work.ends_log_bind.1 hrest).2
  rename_i role hrole
  unfold reconcileMember at hrest
  split at hrest
  · refine .inl (@Work.Reliable.error _ _ (fun _ => True) ?_ t₂ e ht₂ hrest)
    refine (reliable_patchPod .finalizer hpod).bind fun _ _ => ?_
    exact Work.reliable_log_bind (Work.reliable_pure trivial)
  · rename_i hheld
    rcases ends_reconcileTracked_error ht₂ hpod hlabel hrest with hrefusal | ⟨rfl, rfl, hlive, rfl⟩
    · exact .inl hrefusal
    · obtain ⟨r, hr, hexecutor⟩ := Option.bind_eq_some_iff.1 hrole
      refine .inr ⟨pod, applicationId, rfl, ⟨hlabel, hnonempty, ?_, ?_, hlive⟩, rfl⟩
      · rw [hr, Pod.Role.ofName?_eq_some_iff.1 hexecutor]
        rfl
      · simpa [hlive] using hheld

/-- A live executor without a record is not recorded. -/
theorem ends_reconcile_of_awaits (hpod : IsWholePod pod) (h : Awaits pod applicationId) :
    (reconcile runningRequeue ns name).run.Ends (opening ns name pod applicationId none)
      (.error (.applicationNotFound applicationId)) := by
  refine (ends_reconcile_of_member h.member?_eq).2 ?_
  rw [reconcileMember_of_held _ _ _ _ _ (.inl h.tracked)]
  refine ends_run_bind_error.2 (.inr ⟨[_], [], none, rfl, ?_, ?_⟩)
  · exact Work.ends_store_ok.2 (ends_getApplication.2 ⟨.ok none, rfl, rfl⟩)
  · rw [h.live, track, trackExecutor_none hpod]
    exact ⟨rfl, rfl⟩

/-- If all objects that it is shown have their names, a reconcile fails because a request was
refused or because no record is found, and never for want of a heritage or of metadata. No record
is found exactly if it is absent for a live executor that is tracked, and the failure names its
application. -/
theorem fails_only_as_intended (ht : Whole t) :
    (∀ e, (reconcile runningRequeue ns name).run.Ends t (.error e) →
      (e.IsRefusal ∨ ∃ applicationId, e = .applicationNotFound applicationId) ∧
        e ≠ .heritage ∧ ¬e.LacksMetadata) ∧
    ∀ applicationId, (reconcile runningRequeue ns name).run.Ends t
        (.error (.applicationNotFound applicationId)) ↔
      ∃ pod, t = opening ns name pod applicationId none ∧ Awaits pod applicationId := by
  refine ⟨fun e h => ?_, fun applicationId => ⟨fun h => ?_, ?_⟩⟩
  · rcases ends_reconcile_error ht h with h | ⟨_, applicationId, -, -, rfl⟩
    · exact ⟨.inl h, h.ne_heritage, h.not_lacksMetadata⟩
    · exact ⟨.inr ⟨applicationId, rfl⟩, nofun, by simp [Error.LacksMetadata]⟩
  · rcases ends_reconcile_error ht h with h | ⟨pod, _, rfl, hawaits, he⟩
    · exact absurd rfl h.ne_applicationNotFound
    · cases he
      exact ⟨pod, rfl, hawaits⟩
  · rintro ⟨pod, rfl, hawaits⟩
    exact ends_reconcile_of_awaits ((ht _ List.mem_cons_self).pod pod rfl) hawaits

/-- An executor that is looked at before its driver. -/
def earlyExecutor : Pod where
  metadata := { Object.Metadata.empty with
    name := some "exec-1"
    ns := some "jobs"
    uid := some "u-2"
    labels := some (.ofList [("spark-app-selector", "spark-1"), ("spark-role", "executor")])
    finalizers := some [Pod.trackingFinalizer] }
  status := none

theorem fails_only_as_intended_earlyExecutor :
    let t := opening "jobs" "exec-1" earlyExecutor "spark-1" none
    Whole t ∧ (reconcile .ten "jobs" "exec-1").run.Ends t
      (.error (.applicationNotFound "spark-1")) ∧
      ¬(reconcile .ten "jobs" "exec-1").run.Ends t (.error .heritage) := by
  intro t
  have ht : Whole t := whole_opening ⟨rfl, rfl⟩ fun _ h => nomatch h
  obtain ⟨hnever, hmissing⟩ :=
    @fails_only_as_intended t "jobs" "exec-1" .ten ht
  exact ⟨ht, (hmissing "spark-1").2 ⟨earlyExecutor, rfl, by decide, by decide, by decide,
    by decide, by decide⟩, fun h => (hnever _ h).2.1 rfl⟩

end Tracker

end SparkLedger

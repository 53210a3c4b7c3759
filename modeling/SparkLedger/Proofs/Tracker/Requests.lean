import SparkLedger.Proofs.Object.Patch
import SparkLedger.Proofs.Tracker.Work
import SparkLedger.Tracker.Reconcile

/-!
# What a reconcile asks

The questions of a reconcile and the exchanges before each of them, role by role.

* `Pod.member?`: the application and the role of a pod.
* `Spec.Recorded`: what a driver's reconcile makes of a specification, by the answer to its fetch.
* `Application.withExecutor`: what an executor's reconcile makes of an application.
* `asks_trackExecutor`, `asks_trackDriver`: the questions of the two roles.
* `PodEdit`: the changes of the pod, and the exchanges before them.
* `asks_reconcile`: the questions of a reconcile. It reads the pod, then the record, and then
  asks what its role asks, unless it changes the pod.
* `ends_trackDriver_ok`, `ends_reconcile_ok`: the exchanges of a reconcile that succeeds.
-/

namespace SparkLedger

namespace Pod

/-- The application of a pod and its role, if its labels name both. -/
def member? (p : Pod) : Option (String × Role) := do
  let applicationId ← p.metadata.label? applicationLabel
  let role ← (p.metadata.label? roleLabel).bind Role.ofName?
  if applicationId = "" then none else some (applicationId, role)

theorem member?_eq_some_iff {p : Pod} {applicationId : String} {role : Role} :
    p.member? = some (applicationId, role) ↔
      p.metadata.label? applicationLabel = some applicationId ∧ applicationId ≠ "" ∧
        (p.metadata.label? roleLabel).bind Role.ofName? = some role := by
  simp only [member?, Option.bind_eq_bind, Option.bind_eq_some_iff]
  constructor
  · rintro ⟨id, hid, role', hrole, h⟩
    split at h
    · cases h
    · rename_i hne
      cases h
      exact ⟨hid, hne, hrole⟩
  · rintro ⟨hid, hne, hrole⟩
    exact ⟨applicationId, hid, role, hrole, if_neg hne⟩

end Pod

/-! ## What is recorded -/

namespace Application

/-- The application with the snapshot of an executor put into it. -/
def withExecutor (a : Application) (uid : String) (pod : Pod) : Application :=
  { a with spec.executors := Spec.putExecutor uid pod a.spec.executors }

/-- The specification with a driver, as far as its pod alone says. -/
def Spec.withDriver (s : Spec) (pod : Pod) (heritage : Heritage) : Spec :=
  { s with
    driver := some (s.driverSnapshot pod)
    heritage := some heritage }

theorem Spec.withInfo_eq_ok_iff {s s' : Spec} {info : Info} :
    s.withInfo info = .ok s' ↔ ∃ statistics,
      info.update.apply { s.statistics with attempts := info.attempts } = .ok statistics ∧
      s' = { s with
        applicationName :=
          if info.applicationName = "" then s.applicationName else info.applicationName
        properties := info.properties
        statistics
        stageLedger := some info.update.ledger } := by
  rw [Spec.withInfo, Checked.bind_eq_ok_iff]
  refine exists_congr fun statistics => and_congr_right fun _ => ?_
  exact ⟨fun h => by cases h; rfl, fun h => by rw [h]; rfl⟩

/-- What a driver's reconcile makes of a specification, by the answer to its fetch. -/
inductive Spec.Recorded (s : Spec) (pod : Pod) : Except Info.Error Info → Spec → Prop where
  | fetched {heritage : Heritage} {info : Info} {s' : Spec} (name : String)
      (hheritage : s.heritageWith? pod = some heritage)
      (hinfo : (s.withDriver pod heritage).withInfo info = .ok s') :
      Recorded s pod (.ok info) (s'.named name)
  | unfetched {heritage : Heritage} (error : Info.Error) (name : String)
      (hheritage : s.heritageWith? pod = some heritage) :
      Recorded s pod (.error error) ((s.withDriver pod heritage).named name)

namespace Spec.Recorded

variable {s s' : Spec} {pod : Pod} {r : Except Info.Error Info}

private theorem fields_eq (h : s.Recorded pod r s') :
    s'.applicationId = s.applicationId ∧ s'.heritage = s.heritageWith? pod ∧
      s'.driver = some (s.driverSnapshot pod) ∧ s'.executors = s.executors := by
  cases h with
  | fetched name hheritage hinfo =>
    obtain ⟨statistics, -, rfl⟩ := withInfo_eq_ok_iff.1 hinfo
    exact ⟨rfl, hheritage.symm, rfl, rfl⟩
  | unfetched error name hheritage => exact ⟨rfl, hheritage.symm, rfl, rfl⟩

theorem applicationId_eq (h : s.Recorded pod r s') : s'.applicationId = s.applicationId :=
  h.fields_eq.1

theorem heritage_eq (h : s.Recorded pod r s') : s'.heritage = s.heritageWith? pod :=
  h.fields_eq.2.1

theorem driver_eq (h : s.Recorded pod r s') : s'.driver = some (s.driverSnapshot pod) :=
  h.fields_eq.2.2.1

theorem executors_eq (h : s.Recorded pod r s') : s'.executors = s.executors :=
  h.fields_eq.2.2.2

end Spec.Recorded

end Application

namespace Tracker

open Application (Spec)
open Dialogue (Transcript Exchange asks_run_bind ends_run_bind_ok ends_run_bind_error)
open Object (conditionalPatch?)

variable {t : Transcript Tracking} {q : Tracking.Question} {pod : Pod} {applicationId : String}
  {existing : Option Application} {runningRequeue : Seconds}

/-! ## Executors -/

theorem asks_trackExecutor (h : (trackExecutor pod applicationId existing).run.Asks t q) :
    ∃ uid stored ns name p, pod.metadata.uid = some uid ∧ existing = some stored ∧
      stored.metadata.identity? = some (ns, name) ∧
      conditionalPatch? stored (stored.withExecutor uid pod) = some p ∧
      t = [] ∧ q = .patchApplication ns name p := by
  obtain ⟨uid, huid, h⟩ := Work.asks_orFail_bind.1 h
  obtain ⟨stored, hstored, h⟩ := Work.asks_orFail_bind.1 h
  rcases asks_run_bind.1 h with h | ⟨_, _, _, _, _, h⟩
  · obtain ⟨ns, name, p, hplace, hp, ht, hq⟩ := asks_patchApplication.1 (Work.asks_store.1 h)
    exact ⟨uid, stored, ns, name, p, huid, hstored, hplace, hp, ht, hq⟩
  · exact h.elim

/-- An executor is recorded by a patch that was accepted, or is recorded already. -/
theorem ends_trackExecutor_ok {outcome : Outcome}
    (h : (trackExecutor pod applicationId existing).run.Ends t (.ok outcome)) :
    ∃ uid stored ns name, pod.metadata.uid = some uid ∧ existing = some stored ∧
      stored.metadata.identity? = some (ns, name) ∧
      ((stored.withExecutor uid pod = stored ∧ t = []) ∨
        ∃ p a, conditionalPatch? stored (stored.withExecutor uid pod) = some p ∧
          t = [⟨.patchApplication ns name p, (.ok a : Except Kube.Error Application)⟩]) := by
  obtain ⟨uid, huid, h⟩ := Work.ends_orFail_bind_ok.1 h
  obtain ⟨stored, hstored, h⟩ := Work.ends_orFail_bind_ok.1 h
  obtain ⟨t₁, t₂, a, rfl, ha, ht, -⟩ := ends_run_bind_ok.1 h
  obtain ⟨ns, name, hplace, h⟩ := ends_patchApplication_ok.1 (Work.ends_store_ok.1 ha)
  refine ⟨uid, stored, ns, name, huid, hstored, hplace, ?_⟩
  rw [ht, List.append_nil]
  rcases h with ⟨hp, ht, -⟩ | ⟨p, hp, ht⟩
  · exact .inl ⟨(Object.eq_of_conditionalPatch?_eq_none hp).symm, ht⟩
  · exact .inr ⟨p, a, hp, ht⟩

/-! ## Drivers -/

variable {spec spec' : Spec} {failure : Option Info.Error}

theorem asks_recordInfo (h : (recordInfo pod applicationId spec).run.Asks t q) :
    t = [] ∧ q = .info pod applicationId spec.stageLedger := by
  rcases asks_run_bind.1 h with h | ⟨t₁, t₂, r, rfl, hr, h⟩
  · exact Work.asks_info.1 h
  · cases r with
    | ok info =>
      obtain ⟨_, _, h⟩ := Work.asks_checked_bind.1 h
      exact h.elim
    | error e => exact (Work.asks_log_bind.1 h).elim

/-- Why there is no info, if there is none. -/
def failureOf : Except Info.Error Info → Option Info.Error
  | .ok _ => none
  | .error error => some error

theorem ends_recordInfo_ok
    (h : (recordInfo pod applicationId spec).run.Ends t (.ok (spec', failure))) :
    ∃ r : Except Info.Error Info, t = [⟨.info pod applicationId spec.stageLedger, r⟩] ∧
      failure = failureOf r ∧
      match r with
      | .ok info => spec.withInfo info = .ok spec'
      | .error _ => spec' = spec := by
  obtain ⟨t₁, t₂, r, ht, hr, h⟩ := ends_run_bind_ok.1 h
  obtain ⟨a, rfl, ha⟩ := Work.ends_info.1 hr
  cases ha
  cases r with
  | ok info =>
    obtain ⟨s, hs, rfl, hend⟩ := Work.ends_checked_bind.1 h
    cases hend
    exact ⟨.ok info, ht, rfl, hs⟩
  | error e =>
    obtain ⟨rfl, hend⟩ := Work.ends_log_bind.1 h
    cases hend
    exact ⟨.error e, ht, rfl, rfl⟩

/-- The write of a driver's reconcile. -/
def IsWriteOf (existing : Option Application) (application : Application) : Question → Prop
  | .createApplication ns a =>
    existing = none ∧ a = application ∧ ∃ name, a.metadata.identity? = some (ns, name)
  | .patchApplication ns name p =>
    ∃ stored, existing = some stored ∧ stored.metadata.identity? = some (ns, name) ∧
      conditionalPatch? stored application = some p
  | _ => False

theorem asks_writeApplication {application : Application}
    (h : (writeApplication existing application).run.Asks t q) :
    t = [] ∧ IsWriteOf existing application q := by
  cases existing with
  | none =>
    obtain ⟨ns, name, hplace, ht, rfl⟩ := asks_createApplication.1 (Work.asks_store.1 h)
    exact ⟨ht, rfl, rfl, name, hplace⟩
  | some stored =>
    obtain ⟨ns, name, p, hplace, hp, ht, rfl⟩ := asks_patchApplication.1 (Work.asks_store.1 h)
    exact ⟨ht, stored, rfl, hplace, hp⟩

/-- A write of a record that is answered with this. -/
inductive Exchange.Writes (place : String × String) (a : Application) :
    Exchange Tracking → Prop where
  | create (new : Application) :
    Writes place a ⟨.createApplication place.1 new, (.ok a : Except Kube.Error Application)⟩
  | patch (p : Json) :
    Writes place a ⟨.patchApplication place.1 place.2 p, (.ok a : Except Kube.Error Application)⟩

/-- A driver is recorded by a write that was accepted, or is recorded already. -/
theorem ends_writeApplication_ok {application a : Application}
    (h : (writeApplication existing application).run.Ends t (.ok a)) :
    (existing = some application ∧ a = application ∧ t = []) ∨
      ∃ e place, t = [e] ∧ IsWriteOf existing application e.question ∧
        Exchange.Writes place a e := by
  cases existing with
  | none =>
    rcases ends_createApplication.1 (Work.ends_store_ok.1 h) with
      ⟨-, -, hr⟩ | ⟨ns, name, r, hplace, ht, hr⟩
    · cases hr
    · cases ok_eq_mapError_iff.1 hr
      exact .inr ⟨_, (ns, name), ht, ⟨rfl, rfl, name, hplace⟩, .create application⟩
  | some stored =>
    obtain ⟨ns, name, hplace, h⟩ := ends_patchApplication_ok.1 (Work.ends_store_ok.1 h)
    rcases h with ⟨hp, ht, rfl⟩ | ⟨p, hp, ht⟩
    · rw [Object.eq_of_conditionalPatch?_eq_none hp]
      exact .inl ⟨rfl, rfl, ht⟩
    · exact .inr ⟨_, (ns, name), ht, ⟨stored, rfl, hplace, hp⟩, .patch p⟩

section

variable {heritage : Application.Heritage} {application : Application}

/-- Only a driver that nobody owns is given an owner. -/
theorem asks_ownDriver (h : (ownDriver pod applicationId heritage application).run.Asks t q) :
    t = [] ∧ heritage.allowsOwnership = true ∧ hasOwners pod = false ∧
      ∃ reference, application.ownerReference? = some reference ∧
        IsPatchOf pod { pod with metadata.ownerReferences := some [reference] } q := by
  unfold ownDriver at h
  split at h
  · rename_i hfree
    rw [Bool.and_eq_true, Bool.not_eq_true'] at hfree
    split at h
    · rename_i reference hreference
      rcases asks_run_bind.1 h with h | ⟨_, _, _, _, _, h⟩
      · obtain ⟨ht, hpatch⟩ := asks_patchPod.1 (Work.asks_store.1 h)
        exact ⟨ht, hfree.1, hfree.2, reference, hreference, hpatch⟩
      · exact (Work.asks_log_bind.1 h).elim
    · exact h.elim
  · exact h.elim

/-- A driver is given an owner by a patch that was accepted, or must not be given any. -/
theorem ends_ownDriver_ok {pod' : Pod}
    (h : (ownDriver pod applicationId heritage application).run.Ends t (.ok pod')) :
    (t = [] ∧ pod' = pod ∧
        ∀ reference, application.ownerReference? = some reference →
          heritage.allowsOwnership = true → hasOwners pod = true) ∨
      ∃ reference, heritage.allowsOwnership = true ∧ hasOwners pod = false ∧
        application.ownerReference? = some reference ∧
        (patchPod pod { pod with metadata.ownerReferences := some [reference] }).Ends t
          (.ok pod') := by
  unfold ownDriver at h
  split at h
  · rename_i hfree
    rw [Bool.and_eq_true, Bool.not_eq_true'] at hfree
    split at h
    · rename_i reference hreference
      obtain ⟨t₁, t₂, stored, rfl, hpatch, h⟩ := ends_run_bind_ok.1 h
      obtain ⟨rfl, hstored⟩ := Work.ends_log_bind.1 h
      cases hstored
      rw [List.append_nil]
      exact .inr ⟨reference, hfree.1, hfree.2, hreference, Work.ends_store_ok.1 hpatch⟩
    · rename_i hnone
      obtain ⟨rfl, hpod⟩ := h
      cases hpod
      refine .inl ⟨rfl, rfl, fun reference hreference => ?_⟩
      cases hnone.symm.trans hreference
  · rename_i howned
    rw [Bool.and_eq_true, Bool.not_eq_true', not_and, Bool.not_eq_false] at howned
    obtain ⟨rfl, hpod⟩ := h
    cases hpod
    exact .inl ⟨rfl, rfl, fun _ _ => howned⟩

end

/-- What a driver's reconcile has come to when it writes the record: the answer to its fetch, and
what it makes of the record that it has read, or of a new one. -/
structure Recording (pod : Pod) (applicationId : String) (existing : Option Application)
    (start : Application) (heritage : Application.Heritage) (r : Except Info.Error Info)
    (spec : Spec) : Prop where
  start_eq : ∃ ns name, pod.metadata.identity? = some (ns, name) ∧
    start = existing.getD (.template ns applicationId)
  heritage_eq : start.spec.heritageWith? pod = some heritage
  recorded : start.spec.Recorded pod r spec
  /-- The name of the pod is there for an application that has none. -/
  named : pod.metadata.name ≠ some "" → spec.applicationName ≠ ""

section

variable {heritage : Application.Heritage} {start : Application} {r : Except Info.Error Info}

/-- The fetch of a driver, which is given the ledger that is recorded. -/
def fetching (pod : Pod) (applicationId : String) (start : Application)
    (r : Except Info.Error Info) : Exchange Tracking :=
  ⟨.info pod applicationId start.spec.stageLedger, r⟩

private theorem recording_of_informed {ns name : String}
    (hplace : pod.metadata.identity? = some (ns, name))
    (hstart : start = existing.getD (.template ns applicationId))
    (hheritage : start.spec.heritageWith? pod = some heritage)
    (h : match r with
      | .ok info => (start.spec.withDriver pod heritage).withInfo info = .ok spec
      | .error _ => spec = start.spec.withDriver pod heritage) :
    Recording pod applicationId existing start heritage r (spec.named name) where
  start_eq := ⟨ns, name, hplace, hstart⟩
  heritage_eq := hheritage
  recorded := by
    cases r with
    | ok info => exact .fetched name hheritage h
    | error e =>
      rw [h]
      exact .unfetched e name hheritage
  named hname := by
    rw [(Object.Metadata.identity?_eq_some_iff.1 hplace).2, ne_eq, Option.some.injEq] at hname
    rw [Spec.named]
    split
    · exact hname
    · assumption

theorem asks_trackDriver
    (h : (trackDriver runningRequeue pod applicationId existing).run.Asks t q) :
    (∃ ns start, start = existing.getD (.template ns applicationId) ∧ t = [] ∧
        q = .info pod applicationId start.spec.stageLedger) ∨
      ∃ start heritage r spec t', t = fetching pod applicationId start r :: t' ∧
        Recording pod applicationId existing start heritage r spec ∧
        ((t' = [] ∧ IsWriteOf existing { start with spec } q) ∨
          ∃ stored, (writeApplication existing { start with spec }).run.Ends t' (.ok stored) ∧
            (ownDriver pod applicationId heritage stored).run.Asks [] q) := by
  obtain ⟨⟨ns, name⟩, hplace, h⟩ := Work.asks_orFail_bind.1 h
  obtain ⟨heritage, hheritage, h⟩ := Work.asks_orFail_bind.1 h
  rcases asks_run_bind.1 h with hinfo | ⟨t₁, t', ⟨spec, failure⟩, ht, hinfo, hrest⟩
  · have hasks := asks_recordInfo hinfo
    exact .inl ⟨ns, _, rfl, hasks⟩
  · obtain ⟨r, rfl, -, hr⟩ := ends_recordInfo_ok hinfo
    refine .inr ⟨_, heritage, r, spec.named name, t', ht,
      recording_of_informed hplace rfl hheritage hr, ?_⟩
    rcases asks_run_bind.1 hrest with hwrite | ⟨t₁, t₂, stored, rfl, hwrite, hrest⟩
    · exact .inl (asks_writeApplication hwrite)
    · rcases asks_run_bind.1 hrest with hown | ⟨_, _, pod', -, -, hrest⟩
      · obtain ⟨rfl, -⟩ := asks_ownDriver hown
        rw [List.append_nil]
        exact .inr ⟨stored, hwrite, hown⟩
      · exfalso
        dsimp only at hrest
        split at hrest <;> exact hrest

/-- A driver's reconcile that succeeds has fetched, has recorded and has seen to the owner. It is
repeated for a driver that runs, and after a fetch that may succeed later. -/
theorem ends_trackDriver_outcome {outcome : Outcome} {pod' : Pod}
    (h : (trackDriver runningRequeue pod applicationId existing).run.Ends t
      (.ok (outcome, pod'))) :
    ∃ start heritage r spec t₁ t₂ stored, t = fetching pod applicationId start r :: (t₁ ++ t₂) ∧
      Recording pod applicationId existing start heritage r spec ∧
      (writeApplication existing { start with spec }).run.Ends t₁ (.ok stored) ∧
      (ownDriver pod applicationId heritage stored).run.Ends t₂ (.ok pod') ∧
      outcome =
        if !pod.isDeleting &&
              retriesFetch (failureOf r) (start.spec.driverSnapshot pod).isRunning ||
            (start.spec.driverSnapshot pod).isRunning then .requeueAfter runningRequeue
        else .noRequeue := by
  obtain ⟨⟨ns, name⟩, hplace, h⟩ := Work.ends_orFail_bind_ok.1 h
  obtain ⟨heritage, hheritage, h⟩ := Work.ends_orFail_bind_ok.1 h
  obtain ⟨_, t', ⟨spec, failure⟩, ht, hinfo, h⟩ := ends_run_bind_ok.1 h
  obtain ⟨r, rfl, rfl, hr⟩ := ends_recordInfo_ok hinfo
  obtain ⟨t₁, t'', stored, rfl, hwrite, h⟩ := ends_run_bind_ok.1 h
  obtain ⟨t₂, t₃, owned, rfl, hown, h⟩ := ends_run_bind_ok.1 h
  refine ⟨_, heritage, r, spec.named name, t₁, t₂, stored, ?_,
    recording_of_informed hplace rfl hheritage hr, hwrite, ?_⟩
  all_goals
    dsimp only at h
    split at h
    all_goals
      rename_i hrequeue
      obtain ⟨rfl, hdone⟩ := h
      cases hdone
  · rwa [List.append_nil] at ht
  · rwa [List.append_nil] at ht
  · exact ⟨hown, (if_pos hrequeue).symm⟩
  · exact ⟨hown, (if_neg hrequeue).symm⟩

theorem ends_trackDriver_ok {outcome : Outcome} {pod' : Pod}
    (h : (trackDriver runningRequeue pod applicationId existing).run.Ends t
      (.ok (outcome, pod'))) :
    ∃ start heritage r spec t₁ t₂ stored, t = fetching pod applicationId start r :: (t₁ ++ t₂) ∧
      Recording pod applicationId existing start heritage r spec ∧
      (writeApplication existing { start with spec }).run.Ends t₁ (.ok stored) ∧
      (ownDriver pod applicationId heritage stored).run.Ends t₂ (.ok pod') := by
  obtain ⟨start, heritage, r, spec, t₁, t₂, stored, ht, hr, hwrite, hown, -⟩ :=
    ends_trackDriver_outcome h
  exact ⟨start, heritage, r, spec, t₁, t₂, stored, ht, hr, hwrite, hown⟩

end

/-! ## Pods -/

/-- The exchanges with which a reconcile begins: it reads the pod and the record of its
application. -/
def opening (ns name : String) (pod : Pod) (applicationId : String)
    (existing : Option Application) : Transcript Tracking :=
  [⟨.getPod ns name, (.ok (some pod) : Except Kube.Error (Option Pod))⟩,
    ⟨.getApplication ns applicationId,
      (.ok existing : Except Kube.Error (Option Application))⟩]

/-- The pod that an exchange answers. -/
def podOf? : Exchange Tracking → Option Pod
  | ⟨.getPod .., (.ok pod? : Except Kube.Error (Option Pod))⟩ => pod?
  | ⟨.patchPod .., (.ok pod : Except Kube.Error Pod)⟩ => some pod
  | _ => none

theorem asks_release (h : (release pod).run.Asks t q) :
    t = [] ∧ pod.isTracked = true ∧ IsPatchOf pod pod.released q := by
  unfold release at h
  split at h
  · rename_i htracked
    rcases asks_run_bind.1 h with hpatch | ⟨_, _, _, _, _, hrest⟩
    · obtain ⟨ht, hpatch⟩ := asks_patchPod.1 (Work.asks_store.1 hpatch)
      exact ⟨ht, htracked, hpatch⟩
    · exact hrest.elim
  · exact h.elim

theorem ends_release_ok {u : Unit} (h : (release pod).run.Ends t (.ok u)) :
    (pod.isTracked = false ∧ t = []) ∨
      (pod.isTracked = true ∧ ∃ pod', (patchPod pod pod.released).Ends t (.ok pod')) := by
  unfold release at h
  split at h
  · rename_i htracked
    obtain ⟨t₁, t₂, pod', rfl, hpatch, rfl, -⟩ := ends_run_bind_ok.1 h
    rw [List.append_nil]
    exact .inr ⟨htracked, pod', Work.ends_store_ok.1 hpatch⟩
  · rename_i hfree
    exact .inl ⟨Bool.eq_false_iff.2 hfree, h.1⟩

variable {ns name : String} {role : Pod.Role}

theorem asks_track (h : (track runningRequeue pod applicationId existing role).run.Asks t q) :
    (role = .executor ∧ (trackExecutor pod applicationId existing).run.Asks t q) ∨
      (role = .driver ∧ (trackDriver runningRequeue pod applicationId existing).run.Asks t q) := by
  cases role with
  | driver => exact .inr ⟨rfl, h⟩
  | executor =>
    rcases asks_run_bind.1 h with htrack | ⟨_, _, _, _, _, hrest⟩
    · exact .inl ⟨rfl, htrack⟩
    · exact hrest.elim

/-- An executor is not changed by being tracked. -/
theorem ends_track_ok {outcome : Outcome} {pod' : Pod}
    (h : (track runningRequeue pod applicationId existing role).run.Ends t (.ok (outcome, pod'))) :
    (role = .executor ∧ pod' = pod ∧
        (trackExecutor pod applicationId existing).run.Ends t (.ok outcome)) ∨
      (role = .driver ∧ (trackDriver runningRequeue pod applicationId existing).run.Ends t
        (.ok (outcome, pod'))) := by
  cases role with
  | driver => exact .inr ⟨rfl, h⟩
  | executor =>
    obtain ⟨t₁, t₂, outcome', rfl, htrack, ht, hdone⟩ := ends_run_bind_ok.1 h
    cases hdone
    rw [ht, List.append_nil]
    exact .inl ⟨rfl, rfl, htrack⟩

/-- The changes that a reconcile makes to its pod, by what it has exchanged: it holds a pod that is
not tracked, gives a driver an owner, and lets a pod go that is being deleted. -/
inductive PodEdit (runningRequeue : Seconds) (ns name : String) :
    Transcript Tracking → Pod → Pod → Prop where
  | hold {pod : Pod} (hlive : pod.isDeleting = false) (hfree : pod.isTracked = false) :
    PodEdit runningRequeue ns name
      [⟨.getPod ns name, (.ok (some pod) : Except Kube.Error (Option Pod))⟩] pod pod.tracked
  | own {pod : Pod} {applicationId : String} {existing : Option Application} {start : Application}
      {heritage : Application.Heritage} {r : Except Info.Error Info} {spec : Spec}
      {t : Transcript Tracking} {stored : Application} {reference : Object.OwnerReference}
      (hmember : pod.member? = some (applicationId, .driver))
      (hrecording : Recording pod applicationId existing start heritage r spec)
      (hwrite : (writeApplication existing { start with spec }).run.Ends t (.ok stored))
      (hallows : heritage.allowsOwnership = true) (hfree : hasOwners pod = false)
      (hreference : stored.ownerReference? = some reference) :
    PodEdit runningRequeue ns name
      (opening ns name pod applicationId existing ++ fetching pod applicationId start r :: t) pod
      { pod with metadata.ownerReferences := some [reference] }
  /-- The record of the application is gone. -/
  | cascade {pod : Pod} {applicationId : String} (hdeleting : pod.isDeleting = true)
      (htracked : pod.isTracked = true) :
    PodEdit runningRequeue ns name (opening ns name pod applicationId none) pod pod.released
  /-- The pod is recorded. -/
  | release {pod pod' : Pod} {applicationId : String} {existing : Option Application}
      {role : Pod.Role} {outcome : Outcome} {t : Transcript Tracking}
      (htrack : (track runningRequeue pod applicationId existing role).run.Ends t
        (.ok (outcome, pod')))
      (hdeleting : pod'.isDeleting = true) (htracked : pod'.isTracked = true) :
    PodEdit runningRequeue ns name (opening ns name pod applicationId existing ++ t) pod'
      pod'.released

private theorem asks_reconcileTracked {e : Exchange Tracking}
    (he : e = ⟨.getPod ns name, (.ok (some pod) : Except Kube.Error (Option Pod))⟩)
    (hmember : pod.member? = some (applicationId, role))
    (h : (reconcileTracked runningRequeue ns name pod applicationId role).run.Asks t q) :
    (∃ old new, PodEdit runningRequeue ns name (e :: t) old new ∧ IsPatchOf old new q) ∨
      (t = [] ∧ q = .getApplication ns applicationId) ∨
      ∃ existing t', e :: t = opening ns name pod applicationId existing ++ t' ∧
        ((role = .executor ∧ (trackExecutor pod applicationId existing).run.Asks t' q) ∨
          (role = .driver ∧
            ((∃ ns start, start = existing.getD (.template ns applicationId) ∧ t' = [] ∧
                q = .info pod applicationId start.spec.stageLedger) ∨
              ∃ start heritage r spec, t' = [fetching pod applicationId start r] ∧
                Recording pod applicationId existing start heritage r spec ∧
                IsWriteOf existing { start with spec } q))) := by
  subst he
  rcases asks_run_bind.1 h with hget | ⟨t₁, t₂, existing, rfl, hget, hrest⟩
  · exact .inr (.inl (asks_getApplication.1 (Work.asks_store.1 hget)))
  obtain ⟨a, rfl, ha⟩ := ends_getApplication.1 (Work.ends_store_ok.1 hget)
  cases ok_eq_mapError_iff.1 ha
  split at hrest
  · rename_i hgone
    rw [Bool.and_eq_true, Bool.and_eq_true, Option.isNone_iff_eq_none] at hgone
    rcases asks_run_bind.1 (Work.asks_log_bind.1 hrest) with hrelease | ⟨_, _, _, _, _, hrest⟩
    · obtain ⟨rfl, htracked, hpatch⟩ := asks_release hrelease
      rw [hgone.1.1]
      exact .inl ⟨pod, _, .cascade hgone.1.2 htracked, hpatch⟩
    · exact hrest.elim
  rcases asks_run_bind.1 hrest with htrack | ⟨t₁, t₃, ⟨outcome, pod'⟩, rfl, htrack, hrest⟩
  · rcases asks_track htrack with ⟨hrole, htrack⟩ | ⟨rfl, htrack⟩
    · exact .inr (.inr ⟨existing, t₂, rfl, .inl ⟨hrole, htrack⟩⟩)
    · rcases asks_trackDriver htrack with hinfo | ⟨start, heritage, r, spec, t', rfl, hr, hrest⟩
      · exact .inr (.inr ⟨existing, t₂, rfl, .inr ⟨rfl, .inl hinfo⟩⟩)
      · rcases hrest with ⟨rfl, hwrite⟩ | ⟨stored, hwrite, hown⟩
        · exact .inr (.inr ⟨existing, _, rfl,
            .inr ⟨rfl, .inr ⟨start, heritage, r, spec, rfl, hr, hwrite⟩⟩⟩)
        · obtain ⟨-, hallows, hfree, reference, hreference, hpatch⟩ := asks_ownDriver hown
          exact .inl ⟨pod, _, .own hmember hr hwrite hallows hfree hreference, hpatch⟩
  · dsimp only at hrest
    split at hrest
    · rename_i hdeleting
      rw [Bool.and_eq_true] at hdeleting
      rcases asks_run_bind.1 hrest with hrelease | ⟨_, _, _, _, _, hrest⟩
      · obtain ⟨rfl, htracked, hpatch⟩ := asks_release hrelease
        rw [List.append_nil]
        exact .inl ⟨pod', _, .release htrack hdeleting.1 htracked, hpatch⟩
      · exact (Work.asks_log_bind.1 hrest).elim
    · exact hrest.elim

/-- Everything a reconcile asks. -/
theorem asks_reconcile (h : (reconcile runningRequeue ns name).run.Asks t q) :
    (t = [] ∧ q = .getPod ns name) ∨
      (∃ old new, PodEdit runningRequeue ns name t old new ∧ IsPatchOf old new q) ∨
      ∃ pod applicationId role, pod.member? = some (applicationId, role) ∧
        ((t = [⟨.getPod ns name, (.ok (some pod) : Except Kube.Error (Option Pod))⟩] ∧
            q = .getApplication ns applicationId) ∨
          ∃ existing t', t = opening ns name pod applicationId existing ++ t' ∧
            ((role = .executor ∧ (trackExecutor pod applicationId existing).run.Asks t' q) ∨
              (role = .driver ∧
                ((∃ ns start, start = existing.getD (.template ns applicationId) ∧ t' = [] ∧
                    q = .info pod applicationId start.spec.stageLedger) ∨
                  ∃ start heritage r spec, t' = [fetching pod applicationId start r] ∧
                    Recording pod applicationId existing start heritage r spec ∧
                    IsWriteOf existing { start with spec } q)))) := by
  rcases asks_run_bind.1 h with hget | ⟨t₁, t₂, pod?, rfl, hget, hrest⟩
  · exact .inl (asks_getPod.1 (Work.asks_store.1 hget))
  obtain ⟨a, rfl, ha⟩ := ends_getPod.1 (Work.ends_store_ok.1 hget)
  cases ok_eq_mapError_iff.1 ha
  refine .inr ?_
  split at hrest
  · exact (Work.asks_log_bind.1 hrest).elim
  rename_i pod
  split at hrest
  · exact hrest.elim
  · exact (Work.asks_log_bind.1 hrest).elim
  rename_i applicationId hempty hlabel
  split at hrest
  · exact (Work.asks_log_bind.1 hrest).elim
  rename_i role hrole
  have hmember := Pod.member?_eq_some_iff.2 ⟨hlabel, hempty, hrole⟩
  unfold reconcileMember at hrest
  split at hrest
  · rename_i hfree
    rw [Bool.and_eq_true, Bool.not_eq_true', Bool.not_eq_true'] at hfree
    rcases asks_run_bind.1 hrest with hhold | ⟨_, _, _, _, _, hrest⟩
    · obtain ⟨rfl, hpatch⟩ := asks_patchPod.1 (Work.asks_store.1 hhold)
      exact .inl ⟨pod, _, .hold hfree.1 hfree.2, hpatch⟩
    · exact (Work.asks_log_bind.1 hrest).elim
  · rcases asks_reconcileTracked rfl hmember hrest with
      hedit | ⟨rfl, hq⟩ | ⟨existing, t', ht, hrest⟩
    · exact .inl hedit
    · exact .inr ⟨pod, applicationId, role, hmember, .inl ⟨rfl, hq⟩⟩
    · exact .inr ⟨pod, applicationId, role, hmember, .inr ⟨existing, t', ht, hrest⟩⟩

/-- A pod of an application is reconciled as one. -/
private theorem run_reconcile_of_member (runningRequeue : Seconds) (ns name : String)
    (hmember : pod.member? = some (applicationId, role)) :
    ∃ next : Except Kube.Error (Option Pod) → Dialogue Tracking (Except Error Outcome),
      (reconcile runningRequeue ns name).run = .ask (.getPod ns name) next ∧
        next (.ok (some pod)) =
          (reconcileMember runningRequeue ns name pod applicationId role).run := by
  obtain ⟨hlabel, hempty, hrole⟩ := Pod.member?_eq_some_iff.1 hmember
  refine ⟨_, rfl, ?_⟩
  change ExceptT.run _ = _
  dsimp only [bind, Dialogue.bind, ExceptT.bind, ExceptT.mk, ExceptT.bindCont, pure, Except.mapError]
  rw [hlabel]
  split
  · rename_i hnone
    cases hnone
  · rename_i hblank
    exact absurd (Option.some.inj hblank) hempty
  · rename_i hid
    cases hid
    rw [hrole]

theorem asks_reconcile_of_member (hmember : pod.member? = some (applicationId, role)) :
    (reconcile runningRequeue ns name).run.Asks
        (⟨.getPod ns name, (.ok (some pod) : Except Kube.Error (Option Pod))⟩ :: t) q ↔
      (reconcileMember runningRequeue ns name pod applicationId role).run.Asks t q := by
  obtain ⟨next, hrun, hnext⟩ := run_reconcile_of_member runningRequeue ns name hmember
  rw [hrun, ← hnext]
  exact Dialogue.asks_ask_cons

theorem ends_reconcile_of_member (hmember : pod.member? = some (applicationId, role))
    {r : Except Error Outcome} :
    (reconcile runningRequeue ns name).run.Ends
        (⟨.getPod ns name, (.ok (some pod) : Except Kube.Error (Option Pod))⟩ :: t) r ↔
      (reconcileMember runningRequeue ns name pod applicationId role).run.Ends t r := by
  obtain ⟨next, hrun, hnext⟩ := run_reconcile_of_member runningRequeue ns name hmember
  rw [hrun, ← hnext]
  exact Dialogue.ends_ask_cons

/-- A tracked or deleted pod is reconciled as such. -/
theorem reconcileMember_of_held (runningRequeue : Seconds) (ns name applicationId : String)
    (role : Pod.Role) (hheld : pod.isTracked = true ∨ pod.isDeleting = true) :
    reconcileMember runningRequeue ns name pod applicationId role =
      reconcileTracked runningRequeue ns name pod applicationId role := by
  rw [reconcileMember, if_neg]
  rcases hheld with h | h <;> simp [h]

/-- A tracked or deleted pod goes with its record, or is recorded and let go unless it is looked at
again. -/
theorem ends_reconcileTracked_ok {outcome : Outcome}
    (h : (reconcileTracked runningRequeue ns name pod applicationId role).run.Ends t
      (.ok outcome)) :
    ∃ existing t', t = ⟨.getApplication ns applicationId,
        (.ok existing : Except Kube.Error (Option Application))⟩ :: t' ∧
      if existing.isNone && pod.isDeleting && goesWithRecord pod applicationId role then
        outcome = .noRequeue ∧ ∃ u, (release pod).run.Ends t' (.ok u)
      else ∃ pod' t₁ t₂, t' = t₁ ++ t₂ ∧
        (track runningRequeue pod applicationId existing role).run.Ends t₁ (.ok (outcome, pod')) ∧
        if pod'.isDeleting && !outcome.requestsRequeue then ∃ u, (release pod').run.Ends t₂ (.ok u)
        else t₂ = [] := by
  obtain ⟨t₁, t', existing, rfl, hget, hrest⟩ := ends_run_bind_ok.1 h
  obtain ⟨a, rfl, ha⟩ := ends_getApplication.1 (Work.ends_store_ok.1 hget)
  cases ok_eq_mapError_iff.1 ha
  refine ⟨existing, t', rfl, ?_⟩
  split at hrest
  · rename_i hgone
    obtain ⟨t₁, t₂, u, rfl, hrelease, rfl, houtcome⟩ :=
      ends_run_bind_ok.1 (Work.ends_log_bind.1 hrest)
    cases houtcome
    rw [if_pos hgone, List.append_nil]
    exact ⟨rfl, u, hrelease⟩
  · rename_i hstays
    obtain ⟨t₁, t₂, ⟨outcome', pod'⟩, rfl, htrack, hrest⟩ := ends_run_bind_ok.1 hrest
    rw [if_neg hstays]
    dsimp only at hrest
    split at hrest
    · rename_i hgoes
      obtain ⟨t₂, t₃, u, rfl, hrelease, hrest⟩ := ends_run_bind_ok.1 hrest
      obtain ⟨rfl, houtcome⟩ := Work.ends_log_bind.1 hrest
      cases houtcome
      rw [List.append_nil]
      exact ⟨pod', t₁, t₂, rfl, htrack, by rw [if_pos hgoes]; exact ⟨u, hrelease⟩⟩
    · rename_i hkept
      obtain ⟨rfl, houtcome⟩ := hrest
      cases houtcome
      exact ⟨pod', t₁, [], rfl, htrack, by rw [if_neg hkept]⟩

/-- What a reconcile that succeeds has exchanged: it has nothing to do, or holds the pod, or lets it
go with its record, or has recorded it. -/
theorem ends_reconcile_ok {outcome : Outcome}
    (h : (reconcile runningRequeue ns name).run.Ends t (.ok outcome)) :
    ∃ pod? t', t = ⟨.getPod ns name, (.ok pod? : Except Kube.Error (Option Pod))⟩ :: t' ∧
      ((pod?.bind Pod.member? = none ∧ t' = []) ∨
        ∃ pod applicationId role, pod? = some pod ∧ pod.member? = some (applicationId, role) ∧
          ((∃ held, (patchPod pod pod.tracked).Ends t' (.ok held)) ∨
            ∃ existing t'', t' = ⟨.getApplication ns applicationId,
                (.ok existing : Except Kube.Error (Option Application))⟩ :: t'' ∧
              ((existing = none ∧ ∃ u, (release pod).run.Ends t'' (.ok u)) ∨
                ∃ outcome' pod' t₁ t₂, t'' = t₁ ++ t₂ ∧
                  (track runningRequeue pod applicationId existing role).run.Ends t₁
                    (.ok (outcome', pod')) ∧
                  (t₂ = [] ∨ ∃ u, (release pod').run.Ends t₂ (.ok u))))) := by
  obtain ⟨t₁, t', pod?, rfl, hget, hrest⟩ := ends_run_bind_ok.1 h
  obtain ⟨a, rfl, ha⟩ := ends_getPod.1 (Work.ends_store_ok.1 hget)
  cases ok_eq_mapError_iff.1 ha
  refine ⟨pod?, t', rfl, ?_⟩
  split at hrest
  · exact .inl ⟨rfl, (Work.ends_log_bind.1 hrest).1⟩
  rename_i pod
  split at hrest
  · rename_i hlabel
    exact .inl ⟨by simp [Pod.member?, hlabel], hrest.1⟩
  · rename_i hlabel
    refine .inl ⟨?_, (Work.ends_log_bind.1 hrest).1⟩
    cases hrole : (pod.metadata.label? Pod.roleLabel).bind Pod.Role.ofName? <;>
      simp [Pod.member?, hlabel, hrole]
  rename_i applicationId hempty hlabel
  split at hrest
  · rename_i hrole
    exact .inl ⟨by simp [Pod.member?, hlabel, hrole], (Work.ends_log_bind.1 hrest).1⟩
  rename_i role hrole
  refine .inr ⟨pod, applicationId, role, rfl,
    Pod.member?_eq_some_iff.2 ⟨hlabel, hempty, hrole⟩, ?_⟩
  unfold reconcileMember at hrest
  split at hrest
  · obtain ⟨t₁, t₂, held, rfl, hhold, hrest⟩ := ends_run_bind_ok.1 hrest
    obtain ⟨rfl, -⟩ := Work.ends_log_bind.1 hrest
    rw [List.append_nil]
    exact .inl ⟨held, Work.ends_store_ok.1 hhold⟩
  · obtain ⟨existing, t'', ht, hrest⟩ := ends_reconcileTracked_ok hrest
    refine .inr ⟨existing, t'', ht, ?_⟩
    split at hrest
    · rename_i hgone
      rw [Bool.and_eq_true, Bool.and_eq_true, Option.isNone_iff_eq_none] at hgone
      exact .inl ⟨hgone.1.1, hrest.2⟩
    · obtain ⟨pod', t₁, t₂, ht'', htrack, hrelease⟩ := hrest
      refine .inr ⟨outcome, pod', t₁, t₂, ht'', htrack, ?_⟩
      split at hrelease
      · exact .inr hrelease
      · exact .inl hrelease

end Tracker

end SparkLedger

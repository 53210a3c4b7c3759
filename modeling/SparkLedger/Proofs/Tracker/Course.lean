import SparkLedger.Proofs.Tracker.Plan

/-!
# The course of a reconcile

From what is stored, a reconcile with a server either finds nothing to do, or begins to track the
pod, or carries out a plan, or fails before it writes.

* `Course`: a pod, its record and the plan for them, as they are stored.
* `Server.run_reconcile`: what a reconcile comes to. `Server.run_reconcile_of_course`: if no request
  fails, it takes the course there is.
-/

namespace SparkLedger

namespace Pod

open Object (Metadata OwnerReference)

/-- The pod with an owner, if it is given one. -/
def owned (p : Pod) : Option OwnerReference → Pod
  | some reference => { p with metadata.ownerReferences := some [reference] }
  | none => p

/-- The pod, no longer tracked. -/
def letGo (p : Pod) : Pod := if p.isTracked then p.released else p

theorem isTracked_released (p : Pod) : p.released.isTracked = false := by
  unfold isTracked released
  dsimp only
  split <;> simp

theorem isTracked_letGo (p : Pod) : p.letGo.isTracked = false := by
  unfold letGo
  split
  · exact p.isTracked_released
  · exact Bool.eq_false_iff.2 ‹_›

theorem letGo_letGo (p : Pod) : p.letGo.letGo = p.letGo :=
  if_neg (Bool.eq_false_iff.1 p.isTracked_letGo)

theorem letGo_under (p : Pod) (version : Option String) :
    (p.under version).letGo = p.letGo.under version := by
  change (if p.isTracked then p.released.under version else p.under version) = _
  rw [letGo]
  split <;> rfl

theorem owned_under (p : Pod) (version : Option String) (reference : Option OwnerReference) :
    (p.under version).owned reference = (p.owned reference).under version := by
  cases reference <;> rfl

theorem find?_owned_of_ne (p : Pod) (reference : Option OwnerReference) {k : String}
    (hk : k ≠ "ownerReferences") :
    Assoc.find? k (p.owned reference).metadata.toJson.members =
      Assoc.find? k p.metadata.toJson.members := by
  cases reference with
  | some r => exact Metadata.find?_ownerReferences_of_ne _ _ hk
  | none => rfl

theorem find?_letGo_of_ne (p : Pod) {k : String} (hk : k ≠ "finalizers") :
    Assoc.find? k p.letGo.metadata.toJson.members = Assoc.find? k p.metadata.toJson.members := by
  unfold letGo
  split
  · exact Metadata.find?_finalizers_of_ne _ _ hk
  · rfl

private theorem finalizers_ne_obj (m : Metadata) (ms : List (String × Json)) :
    Assoc.find? "finalizers" m.toJson.members ≠ some (.obj ms) := by
  rw [Metadata.find?_finalizers]
  cases m.finalizers <;> simp

/-- Change of the finalizers. -/
theorem Change.of_finalizers (p : Pod) (fs : Option (List String)) :
    Change p { p with metadata.finalizers := fs } where
  status_eq := rfl
  identity_eq := rfl
  version_eq := rfl
  members k := by
    by_cases hk : k = "finalizers"
    · exact .inr (hk ▸ finalizers_ne_obj _)
    · exact .inl (Metadata.find?_finalizers_of_ne _ _ hk)

theorem change_owned (p : Pod) (reference : Option OwnerReference) :
    Change p (p.owned reference) := by
  cases reference with
  | none => exact .of_finalizers p p.metadata.finalizers
  | some r =>
    refine ⟨rfl, rfl, rfl, fun k => ?_⟩
    by_cases hk : k = "ownerReferences"
    · refine .inr fun ms => ?_
      rw [hk, Metadata.find?_ownerReferences]
      simp [owned]
    · exact .inl (find?_owned_of_ne p (some r) hk)

end Pod

namespace Tracker

open Dialogue (Transcript Exchange Ending)

variable {S : Server} {s s₁ : Site} {runningRequeue : Seconds} {ns name : String}

namespace Server

/-! ## Pods that are reconciled -/

/-- Nothing is done with a pod that is gone or belongs to no application. -/
theorem run_reconcile_of_none {pod? : Option Pod}
    (hread : S.run (.store .store (getPod ns name)) s = (.done (.ok pod?), s₁))
    (hpod : pod?.bind Pod.member? = none) :
    S.run (reconcile runningRequeue ns name) s = (.done (.ok .noRequeue), s₁) := by
  unfold reconcile
  rw [run_bind_of_ok hread]
  cases pod? with
  | none => rfl
  | some pod =>
    dsimp only
    split
    · rfl
    · rfl
    · rename_i applicationId hempty hid
      have hrole : (pod.metadata.label? Pod.roleLabel).bind Pod.Role.ofName? = none := by
        refine Option.eq_none_iff_forall_ne_some.2 fun role hrole => ?_
        cases (Pod.member?_eq_some_iff.2 ⟨hid, hempty, hrole⟩).symm.trans hpod
      rw [hrole]
      rfl

theorem run_reconcile_of_member {pod : Pod} {applicationId : String} {role : Pod.Role}
    (hread : S.run (.store .store (getPod ns name)) s = (.done (.ok (some pod)), s₁))
    (hmember : pod.member? = some (applicationId, role)) :
    S.run (reconcile runningRequeue ns name) s =
      S.run (reconcileMember runningRequeue ns name pod applicationId role) s₁ := by
  obtain ⟨hid, hne, hrole⟩ := Pod.member?_eq_some_iff.1 hmember
  unfold reconcile
  rw [run_bind_of_ok hread]
  dsimp only
  rw [hid, hrole]
  split
  · rename_i hsome
    cases hsome
  · rename_i hsome
    exact absurd (Option.some.inj hsome) hne
  · rename_i hsome
    cases hsome
    rfl

/-! ## Reading -/

/-- A read that is served, or work that stops. -/
theorem stops_or_read {α : Type} {x : Work α} {cause : StoreError → Error} {e : Exchange Tracking}
    {r : Except Error α} (hx : S.run x s = S.attempt cause e s.objects r s)
    (he : e.question.isWrite = false) :
    S.Stops x s ∨ ∃ a, r = .ok a ∧ S.run x s = (.done (.ok a), s.hear [e]) := by
  rcases S.attempt_cases cause e s.objects r s with h | ⟨error, o, ho, h⟩
  · rw [hx, h]
    cases r with
    | ok a => exact .inr ⟨a, rfl, rfl⟩
    | error error =>
      exact .inl ⟨.done (.error error), [e], .singleton he, hx.trans h, fun _ h => by cases h⟩
  · have hsame : o = s.objects := ho.elim id id
    subst hsame
    exact .inl ⟨.done (.error (cause (.ofKube error))), [⟨e.question, e.question.failed error⟩],
      .singleton he, hx.trans h, fun _ h => by cases h⟩

theorem sought_eq_ok_some_iff {α : Type} {read : Json → Option α} {stored : Option Json} {a : α} :
    sought read stored = .ok (some a) ↔ ∃ j, stored = some j ∧ read j = some a := by
  cases stored with
  | none => simp [sought]
  | some j => cases h : read j <;> simp [sought, shown, h, Except.map]

theorem sought_eq_ok_none_iff {α : Type} {read : Json → Option α} {stored : Option Json} :
    sought read stored = .ok none ↔ stored = none := by
  cases stored with
  | none => simp [sought]
  | some j => cases h : read j <;> simp [sought, shown, h, Except.map]

end Server

/-! ## Courses -/

namespace Objects

variable {o : Objects}

theorem Filed.hasPod (ho : o.Filed) {place : String × String} {pod : Pod}
    (h : sought Pod.ofJson? (o.pods place) = .ok (some pod)) : ∃ j, o.HasPod place j pod := by
  obtain ⟨j, hstored, hread⟩ := Server.sought_eq_ok_some_iff.1 h
  obtain ⟨hvalue, hnamed⟩ := ho.pods place j hstored
  have hplace := hnamed pod hread
  exact ⟨j, hstored, Pod.exists_hasMetadata hvalue hread hplace, hread, hplace⟩

theorem Holds.sought_eq {place : String × String} {existing : Option Application}
    (h : o.Holds place existing) : sought Application.ofJson? (o.records place) = .ok existing := by
  cases existing with
  | none => exact Server.sought_eq_ok_none_iff.2 h
  | some a =>
    obtain ⟨-, j, hstored, -, hread⟩ := h
    exact Server.sought_eq_ok_some_iff.2 ⟨j, hstored, hread⟩

theorem HasPod.sought_eq {place : String × String} {j : Json} {pod : Pod}
    (h : o.HasPod place j pod) : sought Pod.ofJson? (o.pods place) = .ok (some pod) :=
  Server.sought_eq_ok_some_iff.2 ⟨j, h.stored, h.read⟩

theorem Filed.holds (ho : o.Filed) {place : String × String} {existing : Option Application}
    (h : sought Application.ofJson? (o.records place) = .ok existing) : o.Holds place existing := by
  cases existing with
  | none => exact Server.sought_eq_ok_none_iff.1 h
  | some a =>
    obtain ⟨j, hstored, hread⟩ := Server.sought_eq_ok_some_iff.1 h
    obtain ⟨hvalue, harr, hnamed⟩ := ho.records place j hstored
    exact ⟨hnamed a hread, j, hstored, Application.exists_hasMetadata hvalue harr hread, hread⟩

end Objects

/-- No pod of an application is stored here. -/
def Objects.Idle (o : Objects) (ns name : String) : Prop :=
  ∃ pod?, sought Pod.ofJson? (o.pods (ns, name)) = .ok pod? ∧ pod?.bind Pod.member? = none

/-- A pod that is tracked or deleted, the record of its application, and the plan for them. -/
structure Course (info : Pod → String → Option Ledger → Option (Except Info.Error Info))
    (runningRequeue : Seconds) (o : Objects) (ns name : String) where
  document : Json
  pod : Pod
  applicationId : String
  role : Pod.Role
  existing : Option Application
  plan : Plan
  hasPod : o.HasPod (ns, name) document pod
  member : pod.member? = some (applicationId, role)
  held : (!pod.isDeleting && !pod.isTracked) = false
  holds : o.Holds (ns, applicationId) existing
  planned : Plan.of? info runningRequeue pod applicationId existing role = some plan
  revisable : ∀ a, plan.record = some a → o.Revisable (ns, applicationId) existing a

/-- What is stored has one course. -/
theorem Course.unique {info : Pod → String → Option Ledger → Option (Except Info.Error Info)}
    {o : Objects} (C C' : Course info runningRequeue o ns name) : C = C' := by
  obtain ⟨j, pod, applicationId, role, existing, plan, hpod, hmember, _, hholds, hplan, _⟩ := C
  obtain ⟨j', pod', applicationId', role', existing', plan', hpod', hmember', _, hholds', hplan',
    _⟩ := C'
  obtain ⟨rfl, rfl⟩ := hpod.unique hpod'
  cases hmember.symm.trans hmember'
  cases hholds.sought_eq.symm.trans hholds'.sought_eq
  cases hplan.symm.trans hplan'
  rfl

namespace Plan

variable {info : Pod → String → Option Ledger → Option (Except Info.Error Info)} {pod : Pod}
  {applicationId : String} {existing : Option Application} {role : Pod.Role} {plan : Plan}
  {a : Application}

/-- A record keeps its metadata. -/
theorem metadata_eq_of_of? (hplace : pod.metadata.identity? = some (ns, name))
    (hplan : of? info runningRequeue pod applicationId existing role = some plan)
    (ha : plan.record = some a) :
    a.metadata = (existing.getD (.template ns applicationId)).metadata := by
  unfold of? at hplan
  split at hplan
  · cases hplan
    cases ha
  · cases role with
    | driver =>
      simp only [ofRole?, hplace, Option.bind_eq_bind, Option.bind_some] at hplan
      obtain ⟨_, _, _, _, -, -, -, rfl⟩ := ofDriver?_eq_some_iff.1 hplan
      cases ha
      rfl
    | executor =>
      obtain ⟨_, stored, -, rfl, rfl⟩ := ofExecutor?_eq_some_iff.1 hplan
      cases ha
      rfl

theorem revisable_of_of? {o : Objects} (ho : o.Sound)
    (hplace : pod.metadata.identity? = some (ns, name))
    (hholds : o.Holds (ns, applicationId) existing)
    (hplan : of? info runningRequeue pod applicationId existing role = some plan)
    (ha : plan.record = some a) : o.Revisable (ns, applicationId) existing a := by
  have hmeta := metadata_eq_of_of? hplace hplan ha
  refine ⟨?_, fun b hb => ?_, fun _ j hj => ?_⟩
  · rw [hmeta]
    cases existing with
    | none => rfl
    | some b => exact hholds.1
  · rw [hmeta, hb]
    rfl
  · exact ⟨(ho.records _ _ hj).1, (ho.records _ _ hj).2.1⟩

end Plan

namespace Server

/-- The exchange in which a pod is read. -/
def podRead (ns name : String) (pod : Pod) : Exchange Tracking :=
  ⟨.getPod ns name, (.ok (some pod) : Except Kube.Error (Option Pod))⟩

/-- The exchange in which a record is read. -/
def recordRead (ns name : String) (existing : Option Application) : Exchange Tracking :=
  ⟨.getApplication ns name, (.ok existing : Except Kube.Error (Option Application))⟩

/-- A pod that is tracked or deleted is dealt with by a plan, unless there is none. -/
private theorem stops_or_plans {j : Json} {pod : Pod} {applicationId : String} {role : Pod.Role}
    (ho : s.objects.Sound) (hhas : s.objects.HasPod (ns, name) j pod)
    (hmember : pod.member? = some (applicationId, role))
    (hheld : (!pod.isDeleting && !pod.isTracked) = false) :
    S.Stops (reconcileTracked runningRequeue ns name pod applicationId role) s ∨
    ∃ (C : Course S.info runningRequeue s.objects ns name) (t : Transcript Tracking), Reads t ∧
      C.pod = pod ∧ recordRead ns C.applicationId C.existing ∈ t ∧
      S.run (reconcileTracked runningRequeue ns name pod applicationId role) s =
        S.run (C.plan.carriedOut C.pod C.existing) (s.hear t) := by
  rcases stops_or_read run_getApplication rfl with hstops | ⟨existing, hexisting, hread⟩
  · exact .inl hstops.bind
  have hsought := ok_eq_mapError_iff.1 (ok_eq_mapError_iff.1 hexisting.symm).symm
  have hholds := ho.filed.holds hsought
  let t : Transcript Tracking := [recordRead ns applicationId existing]
  have ht : Reads t := .singleton rfl
  replace hread : S.run (.store .store (getApplication ns applicationId)) s =
      (.done (.ok existing), s.hear t) := by
    rw [hread, hsought]
    rfl
  cases hplan : Plan.of? S.info runningRequeue pod applicationId existing role with
  | none => exact .inl (stops_reconcileTracked hread ht hhas.named hplan)
  | some plan =>
    obtain ⟨t', ht', hrun⟩ := run_reconcileTracked hread hhas.named hplan
    refine .inr ⟨⟨j, pod, applicationId, role, existing, plan, hhas, hmember, hheld, hholds, hplan,
      fun a => Plan.revisable_of_of? ho hhas.named hholds hplan⟩, t ++ t', ht.append ht', rfl,
      List.mem_append_left _ (List.mem_singleton_self _), ?_⟩
    rw [hrun, Site.hear_hear]

variable {info : Pod → String → Option Ledger → Option (Except Info.Error Info)}

/-- What a reconcile with a server comes to. -/
theorem run_reconcile (hinfo : S.info = info) (ho : s.objects.Sound) :
    S.Stops (reconcile runningRequeue ns name) s ∨
    (s.objects.Idle ns name ∧ ∃ t, Reads t ∧
      S.run (reconcile runningRequeue ns name) s = (.done (.ok .noRequeue), s.hear t)) ∨
    (∃ j pod t, s.objects.HasPod (ns, name) j pod ∧ (!pod.isDeleting && !pod.isTracked) = true ∧
      Reads t ∧ S.run (reconcile runningRequeue ns name) s =
        S.run (do let _ ← hold pod; return .requeueNow) (s.hear t)) ∨
    ∃ (C : Course info runningRequeue s.objects ns name) (t : Transcript Tracking), Reads t ∧
      podRead ns name C.pod ∈ t ∧ recordRead ns C.applicationId C.existing ∈ t ∧
      S.run (reconcile runningRequeue ns name) s =
        S.run (C.plan.carriedOut C.pod C.existing) (s.hear t) := by
  subst hinfo
  rcases stops_or_read run_getPod rfl with hstops | ⟨pod?, hpod?, hread⟩
  · exact .inl hstops.bind
  have hsought := ok_eq_mapError_iff.1 (ok_eq_mapError_iff.1 hpod?.symm).symm
  cases hmember : pod?.bind Pod.member? with
  | none =>
    exact .inr (.inl ⟨⟨pod?, hsought, hmember⟩, _, .singleton rfl,
      run_reconcile_of_none hread hmember⟩)
  | some member =>
    obtain ⟨applicationId, role⟩ := member
    obtain ⟨pod, rfl, hmember⟩ := Option.bind_eq_some_iff.1 hmember
    obtain ⟨j, hhas⟩ := ho.filed.hasPod hsought
    let t : Transcript Tracking := [podRead ns name pod]
    have ht : Reads t := .singleton rfl
    replace hread : S.run (.store .store (getPod ns name)) s =
        (.done (.ok (some pod)), s.hear t) := by
      rw [hread, hsought]
      rfl
    have hrun : S.run (reconcile runningRequeue ns name) s = _ :=
      run_reconcile_of_member hread hmember
    unfold reconcileMember at hrun
    split at hrun
    · rename_i hfree
      refine .inr (.inr (.inl ⟨j, pod, t, hhas, hfree, ht, hrun.trans ?_⟩))
      rw [run_bind, run_bind]
      rcases S.run (hold pod) _ with ⟨(e | _) | _ | o, s'⟩ <;> rfl
    · rename_i hheld
      have hcases : S.Stops (reconcileTracked runningRequeue ns name pod applicationId role)
          (s.hear t) ∨ _ := stops_or_plans ho hhas hmember (Bool.eq_false_iff.2 hheld)
      rcases hcases with ⟨r, t', ht', hstops, hr⟩ | ⟨C, t', ht', hpod, hmem, hplans⟩
      · exact .inl ⟨r, t ++ t', ht.append ht', by rw [hrun, hstops, Site.hear_hear], hr⟩
      · refine .inr (.inr (.inr ⟨C, t ++ t', ht.append ht', ?_, ?_, ?_⟩))
        · exact List.mem_append_left _ (hpod ▸ List.mem_singleton_self _)
        · exact List.mem_append_right _ hmem
        · rw [hrun, hplans, Site.hear_hear]

/-- A pod that is tracked or deleted takes its course, unless the reconcile stops. -/
theorem stops_or_course (hinfo : S.info = info) (ho : s.objects.Sound) {j : Json} {pod : Pod}
    {applicationId : String} {role : Pod.Role} (hpod : s.objects.HasPod (ns, name) j pod)
    (hmember : pod.member? = some (applicationId, role))
    (hheld : (!pod.isDeleting && !pod.isTracked) = false) :
    S.Stops (reconcile runningRequeue ns name) s ∨
    ∃ (C : Course info runningRequeue s.objects ns name) (t : Transcript Tracking), Reads t ∧
      S.run (reconcile runningRequeue ns name) s =
        S.run (C.plan.carriedOut C.pod C.existing) (s.hear t) := by
  have hcases : S.Stops (reconcile runningRequeue ns name) s ∨ _ := run_reconcile hinfo ho
  rcases hcases with
    hstops | ⟨⟨pod?, hsought, hnone⟩, -⟩ | ⟨j', pod', t, hpod', hfree, -⟩ | ⟨C, t, ht, -, -, hrun⟩
  · exact .inl hstops
  · cases hpod.sought_eq.symm.trans hsought
    cases hmember.symm.trans hnone
  · obtain ⟨-, rfl⟩ := hpod.unique hpod'
    cases hheld.symm.trans hfree
  · exact .inr ⟨C, t, ht, hrun⟩

/-- A pod is read if no request fails. -/
private theorem run_getPod_of_serves (hS : S.Serves) {pod? : Option Pod}
    (h : sought Pod.ofJson? (s.objects.pods (ns, name)) = .ok pod?) :
    S.run (.store .store (getPod ns name)) s = (.done (.ok pod?),
      s.hear [⟨.getPod ns name, (.ok pod? : Except Kube.Error (Option Pod))⟩]) := by
  rw [run_getPod, hS.attempt_eq, h]
  rfl

/-- Nothing is done where no pod of an application is stored. -/
theorem run_reconcile_of_idle (hS : S.Serves) (h : s.objects.Idle ns name) :
    ∃ t, Reads t ∧
      S.run (reconcile runningRequeue ns name) s = (.done (.ok .noRequeue), s.hear t) := by
  obtain ⟨pod?, hsought, hmember⟩ := h
  exact ⟨_, .singleton rfl, run_reconcile_of_none (run_getPod_of_serves hS hsought) hmember⟩

/-- A course is taken if no request fails. -/
theorem run_reconcile_of_course (hS : S.Serves) (hinfo : S.info = info)
    (C : Course info runningRequeue s.objects ns name) :
    ∃ t, Reads t ∧ S.run (reconcile runningRequeue ns name) s =
      S.run (C.plan.carriedOut C.pod C.existing) (s.hear t) := by
  subst hinfo
  let t : Transcript Tracking := [podRead ns name C.pod]
  let t' : Transcript Tracking := [recordRead ns C.applicationId C.existing]
  have hpod : S.run (.store .store (getPod ns name)) s = (.done (.ok (some C.pod)), s.hear t) :=
    run_getPod_of_serves hS C.hasPod.sought_eq
  have hrecord : S.run (.store .store (getApplication ns C.applicationId)) (s.hear t) =
      (.done (.ok C.existing), (s.hear t).hear t') := by
    have hsought : sought Application.ofJson? ((s.hear t).objects.records (ns, C.applicationId)) =
        .ok C.existing := C.holds.sought_eq
    rw [run_getApplication, hS.attempt_eq, hsought]
    rfl
  obtain ⟨t'', ht'', hrun⟩ : ∃ t'', Reads t'' ∧
      S.run (reconcileTracked runningRequeue ns name C.pod C.applicationId C.role) (s.hear t) =
        S.run (C.plan.carriedOut C.pod C.existing) (((s.hear t).hear t').hear t'') :=
    run_reconcileTracked hrecord C.hasPod.named C.planned
  refine ⟨t ++ (t' ++ t''), Reads.append (.singleton rfl) (Reads.append (.singleton rfl) ht''), ?_⟩
  rw [run_reconcile_of_member hpod C.member, reconcileMember, C.held, if_neg Bool.false_ne_true,
    hrun, Site.hear_hear, Site.hear_hear]

end Server

end Tracker

end SparkLedger

import SparkLedger.Proofs.Info.Sources
import SparkLedger.Proofs.Tracker.Stages

/-!
# The same reconcile again

With sources that answer alike, what a reconcile has done does not change what it plans. Once its
record is written, the plan for the pod is to leave the record as it is, and to go on from where the
pod is.

* `Pod.Alike`: pods that differ in nothing but what a reconcile changes.
* `Plan.of?_again`: the plan after the record is written.
* `Course.Resumes`: a course that goes on from a stage of another. `Course.exists_resumes`: there is
  one from every stage, and `Course.Resumes.reached`: it comes to the same end.
-/

namespace SparkLedger

/-! ## Pods -/

namespace Pod

open Object (OwnerReference)

/-- A pod with other finalizers, owners and version. -/
def Alike (pod pod' : Pod) : Prop :=
  ∃ finalizers ownerReferences version, pod' =
    { pod with
      metadata := { pod.metadata with
        finalizers := finalizers
        ownerReferences := ownerReferences
        resourceVersion := version } }

namespace Alike

variable {pod pod' : Pod}

theorem refl (pod : Pod) : Alike pod pod := ⟨_, _, _, rfl⟩

theorem under (h : Alike pod pod') (version : Option String) : Alike pod (pod'.under version) := by
  obtain ⟨_, _, _, rfl⟩ := h
  exact ⟨_, _, _, rfl⟩

theorem owned (h : Alike pod pod') (reference : Option OwnerReference) :
    Alike pod (pod'.owned reference) := by
  obtain ⟨_, _, _, rfl⟩ := h
  cases reference <;> exact ⟨_, _, _, rfl⟩

theorem letGo (h : Alike pod pod') : Alike pod pod'.letGo := by
  unfold Pod.letGo
  split
  · obtain ⟨_, _, _, rfl⟩ := h
    exact ⟨_, _, _, rfl⟩
  · exact h

theorem isDeleting_eq (h : Alike pod pod') : pod'.isDeleting = pod.isDeleting := by
  obtain ⟨_, _, _, rfl⟩ := h
  rfl

theorem member?_eq (h : Alike pod pod') : pod'.member? = pod.member? := by
  obtain ⟨_, _, _, rfl⟩ := h
  rfl

end Alike

theorem Snapshot.refreshed_following (previous : Option Snapshot) (pod : Pod) :
    (following previous pod).refreshed pod = following previous pod := by
  cases previous with
  | none => simp [following, refreshed, ofPod]
  | some s => simp [following, refreshed]

end Pod

/-! ## Records -/

namespace Application.Spec

variable {s s' : Spec} {pod : Pod}

theorem named_named (s : Spec) (name : String) : (s.named name).named name = s.named name := by
  unfold named
  by_cases h : s.applicationName = "" <;> simp [h]

/-- The snapshot of a driver is the one that is recorded. -/
theorem driverSnapshot_again (h : s'.driver = some (s.driverSnapshot pod)) :
    s'.driverSnapshot pod = s.driverSnapshot pod := by
  have huid : (s.driverSnapshot pod).uid = pod.metadata.uid.getD "" := by
    unfold driverSnapshot Pod.Snapshot.following
    split <;> rfl
  rw [driverSnapshot, h, Option.filter_some, decide_eq_true huid, if_pos rfl]
  exact Pod.Snapshot.refreshed_following _ pod

theorem driverSnapshot_alike {pod' : Pod} (h : Pod.Alike pod pod') (s : Spec) :
    s.driverSnapshot pod' = s.driverSnapshot pod := by
  obtain ⟨_, _, _, rfl⟩ := h
  rfl

/-- A driver that is recorded changes nothing. -/
theorem withDriver_again {heritage : Heritage} (hdriver : s'.driver = some (s.driverSnapshot pod))
    (hheritage : s'.heritage = some heritage) : s'.withDriver pod heritage = s' := by
  rw [withDriver, driverSnapshot_again hdriver, ← hdriver, ← hheritage]

/-- The attempts do not depend on the update. -/
private theorem attempts_apply {st st' : Statistics} {u : Update} (h : u.apply st = .ok st') :
    st'.attempts = st.attempts := by
  cases u with
  | full totals l => cases h; rfl
  | incremental delta l =>
    obtain ⟨_, -, h⟩ := Checked.bind_eq_ok_iff.1 h
    obtain ⟨_, -, h⟩ := Checked.bind_eq_ok_iff.1 h
    obtain ⟨_, -, h⟩ := Checked.bind_eq_ok_iff.1 h
    cases h
    rfl

/-- Info that is recorded changes nothing once its stages are counted. -/
theorem withInfo_again {info : Info} (h : s.withInfo info = .ok s') (name : String) :
    (s'.named name).withInfo { info with update := .incremental 0 info.update.ledger } =
      .ok (s'.named name) := by
  obtain ⟨statistics, happly, rfl⟩ := withInfo_eq_ok_iff.1 h
  have hattempts : statistics.attempts = info.attempts := attempts_apply happly
  refine withInfo_eq_ok_iff.2 ⟨statistics, ?_, ?_⟩
  · rw [Update.apply_zero, ← hattempts]
    rfl
  · by_cases hname : info.applicationName = "" <;> simp [named, hname, Update.ledger]

theorem putExecutor_alike {pod' : Pod} (h : Pod.Alike pod pod') (uid : String)
    (executors : List Pod.Snapshot) :
    putExecutor uid pod' executors = putExecutor uid pod executors := by
  obtain ⟨_, _, _, rfl⟩ := h
  induction executors with
  | nil => rfl
  | cons s rest ih =>
    rw [putExecutor, putExecutor, ih]
    rfl

theorem putExecutor_again {uid : String} (huid : pod.metadata.uid = some uid)
    (executors : List Pod.Snapshot) :
    putExecutor uid pod (putExecutor uid pod executors) = putExecutor uid pod executors := by
  induction executors with
  | nil =>
    have hofPod : (Pod.Snapshot.ofPod pod).uid = uid := by simp [Pod.Snapshot.ofPod, huid]
    simp only [putExecutor, hofPod, if_pos]
    exact congrArg (· :: []) (Pod.Snapshot.refreshed_following none pod)
  | cons s rest ih =>
    by_cases hs : s.uid = uid
    · have hrefreshed : (s.refreshed pod).uid = uid := by
        simp [Pod.Snapshot.refreshed, Pod.Snapshot.ofPod, huid]
      simp only [putExecutor, hs, if_pos, hrefreshed]
      exact congrArg (· :: rest) (Pod.Snapshot.refreshed_following (some s) pod)
    · simp only [putExecutor, hs, if_false, ih]

end Application.Spec

/-! ## Plans -/

namespace Tracker

open Application (Spec)
open Info (Sources)
open Object (unversioned)
open Pod (Role)

variable {runningRequeue : Seconds} {ns name : String} {sources : Sources}

namespace Plan

variable {pod pod' : Pod} {applicationId : String} {role : Role} {plan : Plan}

/-- The answer to the same fetch later on. -/
def counted : Except Info.Error Info → Except Info.Error Info
  | .ok info => .ok { info with update := .incremental 0 info.update.ledger }
  | .error error => .error error

theorem informed?_again {spec : Spec} {answer : Except Info.Error Info}
    {result : Spec × Option Info.Error} (h : informed? spec answer = some result) (name : String) :
    informed? (result.1.named name) (counted answer) = some (result.1.named name, result.2) := by
  cases answer with
  | error error => cases h; rfl
  | ok info =>
    obtain ⟨spec', hspec, rfl⟩ := informed?_ok_eq_some_iff.1 h
    exact informed?_ok_eq_some_iff.2 ⟨_, Spec.withInfo_again hspec name, rfl⟩

/-- The same fetch later on, if its answer is recorded. -/
theorem info?_counted (hroom : sources.LeavesRoom) {spec : Spec} {answer : Except Info.Error Info}
    {result : Spec × Option Info.Error} {recorded : Option Ledger} (hpod' : Pod.Alike pod pod')
    (hanswer : sources.info? pod applicationId recorded = some answer)
    (h : informed? spec answer = some result) (name : String) :
    sources.info? pod' applicationId (result.1.named name).stageLedger = some (counted answer) := by
  obtain ⟨_, _, _, rfl⟩ := hpod'
  cases answer with
  | error error => exact Sources.info?_error hanswer rfl rfl rfl _
  | ok info =>
    obtain ⟨spec', hspec, rfl⟩ := informed?_ok_eq_some_iff.1 h
    obtain ⟨_, -, rfl⟩ := Application.Spec.withInfo_eq_ok_iff.1 hspec
    exact Sources.info?_again hroom hanswer rfl rfl rfl

private theorem ofDriver?_again (hroom : sources.LeavesRoom) {start stored : Application}
    (hplan : ofDriver? sources.info? runningRequeue pod applicationId name start = some plan)
    (hpod' : Pod.Alike pod pod')
    (howners : pod'.metadata.ownerReferences = pod.metadata.ownerReferences ∨ plan.owns = true)
    (hstored : some stored.spec = plan.record.map (·.spec)) :
    ofDriver? sources.info? runningRequeue pod' applicationId name stored =
      some ⟨some stored, plan.owns && !hasOwners pod', plan.outcome⟩ := by
  obtain ⟨heritage, answer, spec, failure, hheritage, hanswer, hinformed, rfl⟩ :=
    ofDriver?_eq_some_iff.1 hplan
  obtain ⟨hdriver, hkept⟩ := informed?_keeps hinformed
  replace hstored : stored.spec = spec.named name := Option.some.inj hstored
  have hdriver' : stored.spec.driver = some (start.spec.driverSnapshot pod) := by
    rw [hstored]
    exact hdriver
  have hheritage' : stored.spec.heritage = some heritage := by
    rw [hstored]
    exact hkept
  have hwith : stored.spec.withDriver pod' heritage = stored.spec := by
    rw [Spec.withDriver, Spec.driverSnapshot_alike hpod']
    exact Spec.withDriver_again hdriver' hheritage'
  refine ofDriver?_eq_some_iff.2 ⟨heritage, counted answer, stored.spec, failure, ?_, ?_, ?_, ?_⟩
  · rw [Spec.heritageWith?, hheritage']
    rfl
  · rw [hstored]
    exact info?_counted hroom hpod' hanswer hinformed name
  · rw [hwith, hstored]
    exact informed?_again hinformed name
  -- A pod without owners is given one by now, or it still lacks it.
  · have howns : (heritage.allowsOwnership && !hasOwners pod && !hasOwners pod') =
        (heritage.allowsOwnership && !hasOwners pod') := by
      rcases howners with hsame | howns
      · rw [hasOwners, hasOwners, hsame, Bool.and_assoc, Bool.and_self]
      · simp only [Bool.and_eq_true] at howns
        rw [howns.1, howns.2]
        rfl
    have hrecord : stored.spec.named name = stored.spec := by
      rw [hstored, Spec.named_named]
    have houtcome : driverOutcome runningRequeue pod' failure =
        driverOutcome runningRequeue pod failure := by
      obtain ⟨_, _, _, rfl⟩ := hpod'
      rfl
    rw [howns, hrecord, houtcome, Spec.driverSnapshot_alike hpod',
      Spec.driverSnapshot_again hdriver']

/-- Once the record is written, the plan is to leave it so, and the rest is as before. -/
theorem of?_again (hroom : sources.LeavesRoom) {existing stored : Option Application}
    (hplan : of? sources.info? runningRequeue pod applicationId existing role = some plan)
    (hpod' : Pod.Alike pod pod')
    (howners : pod'.metadata.ownerReferences = pod.metadata.ownerReferences ∨ plan.owns = true)
    (hstored : stored.map (·.spec) = plan.record.map (·.spec)) :
    of? sources.info? runningRequeue pod' applicationId stored role =
      some ⟨stored, plan.owns && !hasOwners pod', plan.outcome⟩ := by
  unfold of? at hplan
  split at hplan
  -- A record that is gone is not made again: the pod still goes with it.
  · rename_i hgone
    cases hplan
    obtain rfl : stored = none := Option.map_eq_none_iff.1 hstored
    have hsame := howners.resolve_right nofun
    have hgone' : (pod'.isDeleting && goesWithRecord pod' applicationId role) = true := by
      have hgoes : goesWithRecord pod' applicationId role =
          goesWithRecord pod applicationId role := by
        cases role with
        | driver => rw [goesWithRecord, goesWithRecord, Pod.isOwnedBy, Pod.isOwnedBy, hsame]
        | executor => rfl
      rw [hpod'.isDeleting_eq, hgoes]
      simp only [Bool.and_eq_true] at hgone ⊢
      exact ⟨hgone.1.2, hgone.2⟩
    rw [of?, Option.isNone_none, Bool.true_and, hgone', if_pos rfl]
    rfl
  · cases role with
    | driver =>
      obtain ⟨⟨ns, name⟩, hplace, hplan⟩ := Option.bind_eq_some_iff.1 hplan
      obtain ⟨a, ha⟩ : ∃ a, plan.record = some a := by
        obtain ⟨_, _, _, _, -, -, -, rfl⟩ := ofDriver?_eq_some_iff.1 hplan
        exact ⟨_, rfl⟩
      obtain ⟨b, rfl, hb⟩ := Option.map_eq_some_iff.1 (hstored.trans (congrArg _ ha))
      have hplace' : pod'.metadata.identity? = some (ns, name) := by
        obtain ⟨_, _, _, rfl⟩ := hpod'
        exact hplace
      have hagain : ofDriver? sources.info? runningRequeue pod' applicationId name b = _ :=
        ofDriver?_again hroom hplan hpod' howners hstored
      rw [of?, Option.isNone_some, Bool.false_and, Bool.false_and, if_neg Bool.false_ne_true,
        ofRole?, hplace']
      exact hagain
    | executor =>
      obtain ⟨uid, recorded, huid, -, rfl⟩ := ofExecutor?_eq_some_iff.1 hplan
      obtain ⟨b, rfl, hb⟩ := Option.map_eq_some_iff.1 hstored
      have huid' : pod'.metadata.uid = some uid := by
        obtain ⟨_, _, _, rfl⟩ := hpod'
        exact huid
      have hsame : b.withExecutor uid pod' = b := by
        refine Application.ext rfl ?_
        change { b.spec with executors := Spec.putExecutor uid pod' b.spec.executors } = b.spec
        rw [hb, Application.withExecutor, Spec.putExecutor_alike hpod', Spec.putExecutor_again huid]
      exact ofExecutor?_eq_some_iff.2 ⟨uid, b, huid', rfl, by rw [hsame]; rfl⟩

theorem settled_alike (h : Pod.Alike pod pod') (plan : Plan) :
    Pod.Alike pod (plan.settled pod') := by
  unfold settled
  split
  · exact h.letGo
  · exact h

/-- A pod is let go once. -/
theorem settled_settled (plan : Plan) (pod : Pod) :
    plan.settled (plan.settled pod) = plan.settled pod := by
  have hdeleting := (settled_alike (.refl pod) plan).isDeleting_eq
  conv => lhs; rw [settled, hdeleting]
  split
  · rename_i h
    rw [settled, if_pos h, Pod.letGo_letGo]
  · rfl

/-- Only a pod without owners is given one. -/
theorem hasOwners_of_of? {info : Pod → String → Option Ledger → Option (Except Info.Error Info)}
    {existing : Option Application}
    (hplan : of? info runningRequeue pod applicationId existing role = some plan)
    (howns : plan.owns = true) : hasOwners pod = false := by
  unfold of? at hplan
  split at hplan
  · cases hplan
    cases howns
  · cases role with
    | driver =>
      obtain ⟨_, -, hplan⟩ := Option.bind_eq_some_iff.1 hplan
      obtain ⟨_, _, _, _, -, -, -, rfl⟩ := ofDriver?_eq_some_iff.1 hplan
      simpa using (Bool.and_eq_true_iff.1 howns).2
    | executor =>
      obtain ⟨_, _, -, -, rfl⟩ := ofExecutor?_eq_some_iff.1 hplan
      cases howns

/-- Only where there is no record, none is written. -/
theorem existing_eq_none_of_of?
    {info : Pod → String → Option Ledger → Option (Except Info.Error Info)}
    {existing : Option Application}
    (hplan : of? info runningRequeue pod applicationId existing role = some plan)
    (hrecord : plan.record = none) : existing = none := by
  unfold of? at hplan
  split at hplan
  · rename_i hgone
    simp only [Bool.and_eq_true, Option.isNone_iff_eq_none] at hgone
    exact hgone.1.1
  · cases role with
    | driver =>
      obtain ⟨_, -, hplan⟩ := Option.bind_eq_some_iff.1 hplan
      obtain ⟨_, _, _, _, -, -, -, rfl⟩ := ofDriver?_eq_some_iff.1 hplan
      cases hrecord
    | executor =>
      obtain ⟨_, _, -, -, rfl⟩ := ofExecutor?_eq_some_iff.1 hplan
      cases hrecord

end Plan

/-! ## Courses -/

namespace Course

variable {info : Pod → String → Option Ledger → Option (Except Info.Error Info)} {o o₁ o₂ : Objects}

/-- A course that goes on where the record of another is written and its pod is this. -/
structure Resumes (C : Course info runningRequeue o ns name) (uid : String) (pod₁ : Pod)
    (C₁ : Course info runningRequeue o₁ ns name) : Prop where
  pod_eq : C₁.pod = pod₁
  applicationId_eq : C₁.applicationId = C.applicationId
  existing_eq : ∃ version, C₁.existing = (C.stored uid).map (·.under version)
  plan_eq : C₁.plan = ⟨C₁.existing, C.plan.owns && !hasOwners pod₁, C.plan.outcome⟩

variable {C : Course info runningRequeue o ns name} {uid : String} {pod₁ : Pod}
  {version : Option String}

theorem ownerReferences_finalPod (C : Course info runningRequeue o ns name) (uid : String) :
    (C.finalPod uid).metadata.ownerReferences = (C.ownedPod uid).metadata.ownerReferences := by
  unfold finalPod Plan.settled Pod.letGo
  split
  · split <;> rfl
  · rfl

/-- A pod that has its owner is not given another. -/
theorem owned_of_owned {pod : Pod} (hsame : pod.metadata.ownerReferences =
    (C.ownedPod uid).metadata.ownerReferences) :
    pod.owned (if hasOwners pod then none else C.plan.owner? (C.stored uid)) = pod := by
  cases hr : C.plan.owner? (C.stored uid) with
  | none => split <;> rfl
  | some reference =>
    rw [ownedPod, hr] at hsame
    rw [hasOwners, hsame]
    rfl

theorem owned_pod (C : Course info runningRequeue o ns name) (uid : String) :
    C.pod.owned (if hasOwners C.pod then none else C.plan.owner? (C.stored uid)) =
      C.ownedPod uid := by
  cases howns : C.plan.owns with
  | true => rw [Plan.hasOwners_of_of? C.planned howns, ownedPod, if_neg Bool.false_ne_true]
  | false =>
    rw [ownedPod, Plan.owner?, howns, if_neg Bool.false_ne_true]
    split <;> rfl

namespace IsStage

theorem alike (h : C.IsStage uid pod₁) : Pod.Alike C.pod pod₁ := by
  cases h with
  | recorded => exact .refl _
  | owned => exact (Pod.Alike.refl _).owned _
  | final => exact Plan.settled_alike ((Pod.Alike.refl _).owned _) _

theorem ownerReferences_eq_or (h : C.IsStage uid pod₁) :
    pod₁.metadata.ownerReferences = C.pod.metadata.ownerReferences ∨ C.plan.owns = true := by
  have howned : (C.ownedPod uid).metadata.ownerReferences = C.pod.metadata.ownerReferences ∨
      C.plan.owns = true := by
    unfold ownedPod Plan.owner?
    split
    · exact .inr ‹_›
    · exact .inl rfl
  cases h with
  | recorded => exact .inl rfl
  | owned => exact howned
  | final => rwa [ownerReferences_finalPod]

/-- A pod is tracked until it is let go, and that only if it is being deleted. -/
theorem held (h : C.IsStage uid pod₁) : (!pod₁.isDeleting && !pod₁.isTracked) = false := by
  have hheld := C.held
  rw [h.alike.isDeleting_eq]
  cases hdeleting : C.pod.isDeleting with
  | true => rfl
  | false =>
    rw [hdeleting] at hheld
    have howned : (C.ownedPod uid).isTracked = C.pod.isTracked := by
      unfold ownedPod
      cases C.plan.owner? (C.stored uid) <;> rfl
    have hfinal : C.finalPod uid = C.ownedPod uid := by
      rw [finalPod, Plan.settled, IsStage.owned.alike.isDeleting_eq, hdeleting]
      rfl
    cases h with
    | recorded => exact hheld
    | owned => rwa [howned]
    | final => rwa [hfinal, howned]

end IsStage

/-- The record that is stored at a stage. -/
theorem Reached.exists_holds (h : C.Reached uid pod₁ o₁) :
    ∃ version, o₁.Holds (ns, C.applicationId) ((C.stored uid).map (·.under version)) := by
  have hrecord := h.record
  cases ha : C.plan.record with
  | none =>
    have hnone : o.Holds (ns, C.applicationId) none :=
      Plan.existing_eq_none_of_of? C.planned ha ▸ C.holds
    rw [ha] at hrecord
    refine ⟨none, ?_⟩
    rw [stored, ha]
    exact hrecord.trans hnone
  | some a =>
    rw [ha] at hrecord
    obtain ⟨j, version, hstored, hmeta, -, hread⟩ := hrecord
    have hnamed : ((a.assigned C.existing uid).under version).metadata.identity? =
        some (ns, C.applicationId) := by
      rw [← (C.revisable a ha).named]
      cases C.existing <;> rfl
    refine ⟨version, ?_⟩
    rw [stored, ha]
    exact ⟨hnamed, j, hstored, hmeta, hread⟩

/-- A course goes on from every stage. -/
theorem exists_resumes (hroom : sources.LeavesRoom)
    {C : Course sources.info? runningRequeue o ns name} (hpod₁ : C.IsStage uid pod₁)
    (h : C.Reached uid (pod₁.under version) o₁) :
    ∃ C₁ : Course sources.info? runningRequeue o₁ ns name,
      C.Resumes uid (pod₁.under version) C₁ := by
  obtain ⟨-, j, -, hhas, -⟩ := h.pods
  obtain ⟨version', hholds⟩ := h.exists_holds
  have halike := hpod₁.alike.under version
  have hspec : ((C.stored uid).map (·.under version')).map (·.spec) =
      C.plan.record.map (·.spec) := by
    rw [stored, Option.map_map, Option.map_map]
    refine congrArg (C.plan.record.map ·) (funext fun a => ?_)
    cases C.existing <;> rfl
  have hplan := Plan.of?_again hroom C.planned halike hpod₁.ownerReferences_eq_or hspec
  refine ⟨⟨j, pod₁.under version, C.applicationId, C.role, _, _, hhas,
    halike.member?_eq.trans C.member, hpod₁.held, hholds, hplan, fun a ha => ?_⟩,
    rfl, rfl, ⟨version', rfl⟩, rfl⟩
  -- Nothing is left to be written, so that nothing has to be said of the document.
  dsimp only at ha
  rw [ha] at hholds ⊢
  exact ⟨hholds.1, fun b hb => by rw [Option.some.inj hb], fun hne => absurd rfl hne⟩

namespace Resumes

variable {C₁ : Course info runningRequeue o₁ ns name}

theorem stored_eq (h : C.Resumes uid pod₁ C₁) (uid' : String) : C₁.stored uid' = C₁.existing := by
  rw [stored, h.plan_eq]
  cases C₁.existing <;> rfl

theorem readable (h : C.Resumes uid pod₁ C₁) : C₁.Readable := by
  intro a ha hne
  rw [h.plan_eq] at ha
  exact absurd ha hne

/-- The pod gets its owner unless it has one. -/
theorem owner?_eq (h : C.Resumes uid pod₁ C₁) (uid' : String) :
    C₁.plan.owner? (C₁.stored uid') =
      if hasOwners pod₁ then none else C.plan.owner? (C.stored uid) := by
  obtain ⟨version, hexisting⟩ := h.existing_eq
  rw [h.stored_eq, h.plan_eq, Plan.owner?, hexisting, ← C.plan.owner?_under (C.stored uid) version,
    Plan.owner?]
  cases hasOwners pod₁ <;> simp

theorem settled_eq (h : C.Resumes uid pod₁ C₁) (pod : Pod) :
    C₁.plan.settled pod = C.plan.settled pod := by
  rw [h.plan_eq]
  rfl

/-- A course that goes on leads to the same pod. -/
theorem finalPod_eq (h : C.Resumes uid (pod₁.under version) C₁) (hpod₁ : C.IsStage uid pod₁)
    (uid' : String) : C₁.finalPod uid' = (C.finalPod uid).under version := by
  have howned : C₁.ownedPod uid' =
      (pod₁.owned (if hasOwners pod₁ then none else C.plan.owner? (C.stored uid))).under
        version := by
    rw [ownedPod, h.pod_eq, h.owner?_eq, Pod.owned_under]
    rfl
  rw [finalPod, h.settled_eq, howned, Plan.settled_under]
  cases hpod₁ with
  | recorded => rw [owned_pod]; rfl
  | owned => rw [owned_of_owned rfl]; rfl
  | final => rw [owned_of_owned (C.ownerReferences_finalPod uid), finalPod, Plan.settled_settled]

/-- Nothing is left to be done where the last stage was reached. -/
theorem ownedPod_eq (h : C.Resumes uid ((C.finalPod uid).under version) C₁) (uid' : String) :
    C₁.ownedPod uid' = C₁.pod := by
  rw [ownedPod, h.pod_eq, h.owner?_eq, Pod.owned_under]
  exact congrArg (Pod.under · version) (owned_of_owned (C.ownerReferences_finalPod uid))

/-- A course that goes on leads to the same end. -/
theorem reached (h : C.Resumes uid (pod₁.under version) C₁) (hpod₁ : C.IsStage uid pod₁)
    (hreached : C.Reached uid (pod₁.under version) o₁) {uid' : String} {version' : Option String}
    (hfinal : C₁.Reached uid' ((C₁.finalPod uid').under version') o₂) :
    C.Reached uid ((C.finalPod uid).under version') o₂ where
  pods := by
    have hpods := hfinal.pods
    rw [h.pod_eq, h.finalPod_eq hpod₁, Pod.under_under] at hpods
    exact hreached.pods.trans hpods fun k hk => hpod₁.kept hk
  record := by
    have hrecord := hreached.record
    have hrecord₁ := hfinal.record
    obtain ⟨version₁, hexisting⟩ := h.existing_eq
    have hplanned : C₁.plan.record = C₁.existing := by rw [h.plan_eq]
    rw [h.applicationId_eq] at hrecord₁
    cases ha : C.plan.record with
    | none =>
      rw [ha] at hrecord
      rw [hplanned, hexisting, stored, ha] at hrecord₁
      exact hrecord₁.trans hrecord
    | some a =>
      rw [ha] at hrecord
      obtain ⟨j, _, hstored, ⟨ms, metadata, hmeta⟩, hsame, -⟩ := hrecord
      rw [stored, ha] at hexisting
      rw [hplanned, hexisting] at hrecord₁
      obtain ⟨j', version₂, hstored', hmeta', hsame', hread'⟩ := hrecord₁
      refine ⟨j', version₂, hstored', hmeta', ?_, hread'⟩
      rw [hsame', ← hsame, revision, hexisting, h.applicationId_eq]
      exact congrArg unversioned (Objects.revision_self hstored hmeta ..)
  others q hq := by
    have hq₁ : q ≠ (ns, C₁.applicationId) := by rwa [h.applicationId_eq]
    exact (hfinal.others q hq₁).trans (hreached.others q hq)

end Resumes

end Course

end Tracker

end SparkLedger

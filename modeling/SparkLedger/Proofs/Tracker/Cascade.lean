import SparkLedger.Proofs.Tracker.Holding
import SparkLedger.Proofs.Tracker.Release

/-!
# Drivers that go unrecorded

A driver that is being deleted while its application has no record is let go unrecorded if it names
an owner of the record's kind and name, and only then. The group of the owner is not looked at: an
owner of another group that happens to have the kind and the name counts as the record. Only where
there is no such owner does a driver that goes unrecorded name the record itself.

* `Object.OwnerReference.IsNamesake`, `Object.OwnerReference.Designates`: owners that have the kind
  and the name of a record, and those that are the record.
* `LetGoUnrecorded`: the pod is let go, and no record was created before.
* `asks_reconcile_gone`, `exists_created_of_letsGo`: a driver that goes with its record, and one
  that is recorded first.
* `unrecorded_only_beside_namesake`: which drivers go unrecorded.
-/

namespace SparkLedger

namespace Object.OwnerReference

/-- The owner is of this group, in some version. -/
def IsOfGroup (r : OwnerReference) (group : String) : Prop :=
  ∃ version, r.apiVersion = group ++ "/" ++ version

/-- The owner has the kind and the name of an application's record. -/
structure IsNamesake (r : OwnerReference) (applicationId : String) : Prop where
  kind : r.kind = Application.kind
  name : r.name = applicationId

/-- The owner is the record of an application. -/
structure Designates (r : OwnerReference) (applicationId : String) : Prop
    extends r.IsNamesake applicationId where
  group : r.IsOfGroup Application.group

end Object.OwnerReference

namespace Pod

/-- The owners that the pod names. -/
def owners (pod : Pod) : List Object.OwnerReference := pod.metadata.ownerReferences.getD []

theorem isOwnedBy_iff {pod : Pod} {applicationId : String} :
    pod.isOwnedBy applicationId = true ↔ ∃ r ∈ pod.owners, r.IsNamesake applicationId := by
  rw [isOwnedBy, List.any_eq_true]
  refine exists_congr fun r => and_congr_right' ?_
  rw [Bool.and_eq_true, beq_iff_eq, beq_iff_eq]
  exact ⟨fun h => ⟨h.1, h.2⟩, fun h => ⟨h.kind, h.name⟩⟩

end Pod

namespace Tracker

open Dialogue (Transcript Exchange asks_run_bind)
open Pod (Role)

variable {t : Transcript Tracking} {q : Tracking.Question} {ns name applicationId : String} {pod : Pod}
  {runningRequeue : Seconds} {role : Role} {existing : Option Application}

/-! ## Drivers that are let go -/

/-- The question asks for a patch that may end the tracking of a pod. -/
def Question.LetsGo (q : Question) : Prop := ∃ p, q.podPatch? = some p ∧ Pod.Untracks p

/-- A record was created, with this written. -/
def Created (t : Transcript Tracking) (new : Application) : Prop :=
  ∃ ns a, (⟨.createApplication ns new, (.ok a : Except Kube.Error Application)⟩ :
    Exchange Tracking) ∈ t

/-- The pod, whose application has no record, may be let go without that one is created. -/
def LetGoUnrecorded (runningRequeue : Seconds) (ns name : String) (pod : Pod)
    (applicationId : String) : Prop :=
  ∃ t q, (reconcile runningRequeue ns name).run.Asks
      (opening ns name pod applicationId none ++ t) q ∧ q.LetsGo ∧ ∀ new, ¬Created t new

theorem letsGo_iff_of_isPatchOf {old new : Pod} (h : IsPatchOf old new q) :
    q.LetsGo ↔ ∃ p, Object.conditionalPatch? old new = some p ∧ Pod.Untracks p := by
  cases q with
  | patchPod _ _ p =>
    constructor
    · rintro ⟨_, hp, huntracks⟩
      cases hp
      exact ⟨p, h.2, huntracks⟩
    · rintro ⟨p', hp, huntracks⟩
      cases h.2.symm.trans hp
      exact ⟨p, rfl, huntracks⟩
  | _ => exact h.elim

/-! ## What is asked if the record is gone -/

section

variable (hmember : pod.member? = some (applicationId, role)) (hdeleting : pod.isDeleting = true)
include hmember hdeleting

private theorem asks_reconcile_opening :
    (reconcile runningRequeue ns name).run.Asks (opening ns name pod applicationId existing ++ t) q ↔
      (reconcileTracked runningRequeue ns name pod applicationId role).run.Asks
        (⟨.getApplication ns applicationId,
          (.ok existing : Except Kube.Error (Option Application))⟩ :: t) q := by
  rw [← reconcileMember_of_held runningRequeue ns name applicationId role (.inr hdeleting)]
  exact asks_reconcile_of_member hmember

/-- A pod that goes with its record is let go, and nothing else is asked. -/
theorem asks_reconcile_gone (hgoes : goesWithRecord pod applicationId role = true) :
    (reconcile runningRequeue ns name).run.Asks (opening ns name pod applicationId none ++ t) q ↔
      t = [] ∧ pod.isTracked = true ∧ IsPatchOf pod pod.released q := by
  refine ((asks_reconcile_opening hmember hdeleting).trans Dialogue.asks_ask_cons).trans ?_
  change Dialogue.Asks (ExceptT.run (ite _ _ _ : Work Outcome)) t q ↔ _
  rw [if_pos (by simp [hdeleting, hgoes]), Work.asks_log_bind, asks_run_bind]
  constructor
  · rintro (h | ⟨_, _, _, _, _, h⟩)
    · exact asks_release h
    · exact h.elim
  · rintro ⟨rfl, htracked, hpatch⟩
    left
    rw [release, if_pos htracked]
    exact asks_run_bind.2 (.inl (Work.asks_store.2 (asks_patchPod.2 ⟨rfl, hpatch⟩)))

end

theorem not_letsGo_of_isWriteOf {a : Application} (h : IsWriteOf existing a q) : ¬q.LetsGo := by
  rintro ⟨p, hp, -⟩
  cases q with
  | patchPod => exact h.elim
  | _ => cases hp

/-- A driver is not let go while it is recorded. -/
theorem not_letsGo_of_asks_trackDriver
    (h : (trackDriver runningRequeue pod applicationId existing).run.Asks t q) : ¬q.LetsGo := by
  rcases asks_trackDriver h with ⟨_, _, _, -, rfl⟩ | ⟨_, _, _, _, _, -, -, ⟨-, hwrite⟩ | ⟨_, -, hown⟩⟩
  · rintro ⟨_, hp, -⟩
    cases hp
  · exact not_letsGo_of_isWriteOf hwrite
  · obtain ⟨-, -, -, reference, -, hpatch⟩ := asks_ownDriver hown
    rw [letsGo_iff_of_isPatchOf hpatch]
    rintro ⟨p, hp, huntracks⟩
    exact @Pod.not_untracks_owned p pod (some reference) hp huntracks

/-- A driver that is recorded for the first time has a record created, and its last state is there
if it is being deleted. -/
theorem exists_created_of_ends_trackDriver {outcome : Outcome} {pod' : Pod}
    (hdeleting : pod.isDeleting = true)
    (h : (trackDriver runningRequeue pod applicationId none).run.Ends t (.ok (outcome, pod'))) :
    ∃ new, Created t new ∧ new.spec.Tells pod .driver := by
  obtain ⟨start, heritage, r, spec, t₁, t₂, stored, rfl, hr, hwrite, -⟩ := ends_trackDriver_ok h
  rcases ends_writeApplication_ok hwrite with ⟨hnone, -⟩ | ⟨e, place, rfl, hwrite, hanswer⟩
  · cases hnone
  cases hanswer with
  | create new =>
    obtain ⟨-, rfl, -⟩ := hwrite
    refine ⟨_, ⟨_, _, .tail _ (.head _)⟩, ?_⟩
    exact hr.recorded.driver_eq.trans
      (congrArg some (Application.Spec.driverSnapshot_eq_last _ hdeleting))
  | patch =>
    obtain ⟨_, hnone, -⟩ := hwrite
    cases hnone

/-- A driver that does not go with its record is let go only after a record was created that tells
its last state. -/
theorem exists_created_of_letsGo (hmember : pod.member? = some (applicationId, .driver))
    (hdeleting : pod.isDeleting = true) (hstays : pod.isOwnedBy applicationId = false)
    (h : (reconcile runningRequeue ns name).run.Asks (opening ns name pod applicationId none ++ t) q)
    (hgo : q.LetsGo) : ∃ new, Created t new ∧ new.spec.Tells pod .driver := by
  have h := Dialogue.asks_ask_cons.1 ((asks_reconcile_opening hmember hdeleting).1 h)
  change Dialogue.Asks (ExceptT.run (ite _ _ _ : Work Outcome)) t q at h
  rw [if_neg (by simp [goesWithRecord, hstays])] at h
  rcases asks_run_bind.1 h with htrack | ⟨t₁, t₂, ⟨outcome, pod'⟩, rfl, htrack, -⟩
  · exact absurd hgo (not_letsGo_of_asks_trackDriver htrack)
  · obtain ⟨new, ⟨ns, a, hmem⟩, htells⟩ := exists_created_of_ends_trackDriver hdeleting htrack
    exact ⟨new, ⟨ns, a, List.mem_append_left _ hmem⟩, htells⟩

/-! ## Drivers that go unrecorded -/

/-- A driver goes unrecorded exactly if it is tracked and names an owner of its record's kind and
name. -/
theorem letGoUnrecorded_iff (hmember : pod.member? = some (applicationId, .driver))
    (hdeleting : pod.isDeleting = true) :
    LetGoUnrecorded runningRequeue ns name pod applicationId ↔
      pod.isTracked = true ∧ pod.metadata.identity?.isSome = true ∧
        ∃ r ∈ pod.owners, r.IsNamesake applicationId := by
  rw [← Pod.isOwnedBy_iff]
  constructor
  · rintro ⟨t, q, hasks, hgo, hnone⟩
    have howned : pod.isOwnedBy applicationId = true := by
      by_contra hstays
      obtain ⟨new, hcreated, -⟩ :=
        exists_created_of_letsGo hmember hdeleting (Bool.eq_false_iff.2 hstays) hasks hgo
      exact hnone new hcreated
    obtain ⟨rfl, htracked, hpatch⟩ := (asks_reconcile_gone hmember hdeleting howned).1 hasks
    refine ⟨htracked, ?_, howned⟩
    cases q with
    | patchPod => exact Option.isSome_of_eq_some hpatch.1
    | _ => exact hpatch.elim
  · rintro ⟨htracked, hplace, howned⟩
    obtain ⟨⟨ns', name'⟩, hplace⟩ := Option.isSome_iff_exists.1 hplace
    obtain ⟨p, hp, huntracks⟩ := Pod.exists_untracks_released htracked
    refine ⟨[], .patchPod ns' name' p, ?_, ⟨p, rfl, huntracks⟩, ?_⟩
    · exact (asks_reconcile_gone hmember hdeleting howned).2 ⟨rfl, htracked, hplace, hp⟩
    · rintro new ⟨_, _, hmem⟩
      cases hmem

/-- A driver that is being deleted, and whose application has no record, is let go unrecorded
exactly if it is tracked and names an owner of the kind and the name of its record. If all such
owners are of the record's group, then it names the record. Where it names none, it is let go only
after a record was created that tells its last state. -/
theorem unrecorded_only_beside_namesake (hmember : pod.member? = some (applicationId, .driver))
    (hdeleting : pod.isDeleting = true) :
    (LetGoUnrecorded runningRequeue ns name pod applicationId ↔
      pod.isTracked = true ∧ pod.metadata.identity?.isSome = true ∧
        ∃ r ∈ pod.owners, r.IsNamesake applicationId) ∧
    ((∀ r ∈ pod.owners, r.IsNamesake applicationId → r.IsOfGroup Application.group) →
      LetGoUnrecorded runningRequeue ns name pod applicationId →
        ∃ r ∈ pod.owners, r.Designates applicationId) ∧
    ∀ t q, (reconcile runningRequeue ns name).run.Asks
        (opening ns name pod applicationId none ++ t) q → q.LetsGo →
      (∃ r ∈ pod.owners, r.IsNamesake applicationId) ∨
        ∃ new, Created t new ∧ new.spec.Tells pod .driver := by
  have hiff : LetGoUnrecorded runningRequeue ns name pod applicationId ↔ _ :=
    letGoUnrecorded_iff hmember hdeleting
  refine ⟨hiff, fun hgroup hgo => ?_, fun t q hasks hgo => ?_⟩
  · obtain ⟨-, -, r, hr, hnamesake⟩ := hiff.1 hgo
    exact ⟨r, hr, hnamesake, hgroup r hr hnamesake⟩
  · rw [← Pod.isOwnedBy_iff, or_iff_not_imp_left, Bool.not_eq_true]
    exact fun hstays => exists_created_of_letsGo hmember hdeleting hstays hasks hgo

/-- A driver that goes with its record. -/
theorem unrecorded_only_beside_namesake_dismissed :
    LetGoUnrecorded .ten "spark" "driver" dismissedDriver "app" ∧
      ∃ r ∈ dismissedDriver.owners, r.Designates "app" := by
  have hmember : dismissedDriver.member? = some ("app", .driver) := rfl
  have hgroup : ∀ r ∈ dismissedDriver.owners, r.IsOfGroup Application.group := by
    intro r hr
    cases List.mem_singleton.1 hr
    exact ⟨"v1alpha1", rfl⟩
  obtain ⟨hiff, hdesignates, -⟩ :=
    @unrecorded_only_beside_namesake "spark" "driver" "app" dismissedDriver .ten hmember rfl
  have hgo := hiff.2 ⟨rfl, rfl, _, List.mem_singleton_self _, rfl, rfl⟩
  exact ⟨hgo, hdesignates (fun r hr _ => hgroup r hr) hgo⟩

/-- A driver that is being deleted, and that the resource of another operator owns. -/
def foreignDriver : Pod :=
  { leavingDriver with
    metadata.ownerReferences := some [⟨"sparkoperator.k8s.io/v1beta2", "SparkApplication", "app",
      "operator-uid", some true, none⟩] }

/-- The last state of a driver is lost to an owner of another group. -/
theorem foreign_namesake_drops_record :
    foreignDriver.member? = some ("app", .driver) ∧ foreignDriver.isDeleting = true ∧
      LetGoUnrecorded .ten "spark" "driver" foreignDriver "app" ∧
      ∀ r ∈ foreignDriver.owners, ¬r.Designates "app" := by
  refine ⟨rfl, rfl, (letGoUnrecorded_iff rfl rfl).2 ⟨rfl, rfl, _, List.mem_singleton_self _,
    rfl, rfl⟩, fun r hr hdesignates => ?_⟩
  cases List.mem_singleton.1 hr
  obtain ⟨version, hversion⟩ := hdesignates.group
  have hlast := congrArg (fun s => s.toList[5]?) hversion
  simp [Application.group] at hlast

end Tracker

end SparkLedger

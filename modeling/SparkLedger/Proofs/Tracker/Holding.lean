import SparkLedger.Proofs.Tracker.Discipline
import SparkLedger.Proofs.Tracker.Edits

/-!
# How long a pod is held

The tracking finalizer holds a pod that is being deleted back until its last state is recorded.
What the Spark API says, or whether anybody can be asked at all, has no part in it: a pod is held
back only by a driver that still runs. It is looked at again for the same reason, or because a
fetch may succeed later.

* `Merged`: the server answers a change of the pod with the pod and that change.
* `Merged.answered_eq`: what is seen of the pod then is the change that was made.
* `held_only_while_running`: when a pod is let go, and when it is looked at again.
-/

namespace SparkLedger

namespace Tracker

open Cluster (withMetadata)
open Dialogue (Transcript Exchange ends_run_bind_ok)
open Pod (Role Snapshot)

/-- Every change of the pod is answered with the pod and that change: the patch was merged into a
document that reads as the pod that was seen last. -/
def Merged (t : Transcript Tracking) : Prop :=
  ∀ t₁ t₂ ns name p answered,
    t = t₁ ++ ⟨.patchPod ns name p, (.ok answered : Except Kube.Error Pod)⟩ :: t₂ →
    ∃ seen j version, lastPod? t₁ = some seen ∧ j.IsValue ∧ Pod.ofJson? j = some seen ∧
      Pod.ofJson? (withMetadata "resourceVersion" version (p.merge j)) = some answered

variable {runningRequeue : Seconds} {ns name applicationId : String} {t t₀ t₁ : Transcript Tracking}
  {pod pod' old new answered : Pod} {existing : Option Application} {role : Role}
  {outcome : Outcome}

/-! ## What is seen of the pod -/

/-- A change that succeeds is seen as it was made. -/
theorem Merged.answered_eq (h : Merged (t₀ ++ t ++ t₁)) (hlast : lastPod? t₀ = some old)
    (hchange : Pod.Change old new) (hends : (patchPod old new).Ends t (.ok answered)) :
    ∃ version, answered = new.under version := by
  obtain ⟨ns, name, hplace, ⟨hp, -, rfl⟩ | ⟨p, hp, rfl⟩⟩ := ends_patchPod_ok.1 hends
  · rw [Object.eq_of_conditionalPatch?_eq_none hp]
    exact ⟨new.metadata.resourceVersion, rfl⟩
  · rw [List.append_assoc] at h
    obtain ⟨seen, j, version, hseen, hvalue, hread, hanswered⟩ := h t₀ t₁ ns name p answered rfl
    cases hlast.symm.trans hseen
    obtain ⟨ms, metadata, hmeta⟩ := Pod.exists_hasMetadata hvalue hread hplace
    obtain ⟨-, hmerged⟩ := Pod.turned_merge hmeta hread hchange hp version
    exact ⟨some version, Option.some.inj (hanswered.symm.trans hmerged)⟩

/-- A pod that is let go is not tracked any more. -/
theorem Merged.released (h : Merged (t₀ ++ t)) (hlast : lastPod? t₀ = some pod) {u : Unit}
    (hends : (release pod).run.Ends t (.ok u)) :
    ∃ pod', lastPod? (t₀ ++ t) = some pod' ∧ pod'.isTracked = false := by
  rcases ends_release_ok hends with ⟨hfree, rfl⟩ | ⟨-, answered, hpatch⟩
  · exact ⟨pod, by rwa [List.append_nil], hfree⟩
  · have hchange : Pod.Change pod pod.released := .of_finalizers pod _
    rw [← List.append_nil (t₀ ++ t)] at h
    obtain ⟨version, rfl⟩ := h.answered_eq hlast hchange hpatch
    refine ⟨pod.released.under version, ?_, pod.isTracked_released⟩
    rw [lastPod?_append, hlast]
    exact lastPod?_of_patches hpatch

/-- A driver that was given its owner is tracked and deleted as before. -/
theorem Merged.owned (h : Merged (t₀ ++ t ++ t₁)) (hlast : lastPod? t₀ = some pod)
    {heritage : Application.Heritage} {application : Application}
    (hends : (ownDriver pod applicationId heritage application).run.Ends t (.ok pod')) :
    pod'.isTracked = pod.isTracked ∧ pod'.isDeleting = pod.isDeleting := by
  rcases ends_ownDriver_ok hends with ⟨-, rfl, -⟩ | ⟨reference, -, -, -, hpatch⟩
  · exact ⟨rfl, rfl⟩
  · obtain ⟨version, rfl⟩ := h.answered_eq hlast (pod.change_owned (some reference)) hpatch
    exact ⟨rfl, rfl⟩

/-! ## What a reconcile comes to -/

theorem isRunning_driverSnapshot (s : Application.Spec) (pod : Pod) :
    (s.driverSnapshot pod).isRunning = true ↔ pod.status.bind (·.phase) = some "Running" := by
  rw [Application.Spec.driverSnapshot]
  cases s.driver.filter (·.uid = pod.metadata.uid.getD "") <;> exact beq_iff_eq

/-- A driver is looked at again if it runs. Else it is only if its fetch may succeed later, and a
driver that is being deleted does not wait for that. -/
theorem requeues_iff {r : Except Info.Error Info} {running deleting : Bool} :
    (!deleting && retriesFetch (failureOf r) running || running) = true ↔
      running = true ∨ deleting = false ∧ ∃ error, r = .error error ∧ error ≠ .noClient := by
  cases r with
  | ok info => simp [failureOf, retriesFetch]
  | error error => cases error <;> cases running <;> simp [failureOf, retriesFetch]

theorem outcome_of_trackExecutor
    (h : (trackExecutor pod applicationId existing).run.Ends t (.ok outcome)) :
    outcome = .noRequeue := by
  obtain ⟨uid, -, h⟩ := Work.ends_orFail_bind_ok.1 h
  obtain ⟨stored, -, h⟩ := Work.ends_orFail_bind_ok.1 h
  obtain ⟨_, _, _, -, -, -, houtcome⟩ := ends_run_bind_ok.1 h
  cases houtcome
  rfl

section

variable {driver : Pod} {id : String} {recorded : Option Ledger} {x : Except Info.Error Info}

/-- Nothing is fetched by requests. -/
theorem info_not_mem (ht : requests t = t) :
    (⟨.info driver id recorded, x⟩ : Exchange Tracking) ∉ t := by
  intro hmem
  cases List.filter_eq_self.1 ht _ hmem

/-- The fetch of a driver is the only one. -/
theorem mem_fetching_cons {start : Application} {r : Except Info.Error Info}
    (ht : requests t = t) :
    (⟨.info driver id recorded, x⟩ : Exchange Tracking) ∈ fetching pod applicationId start r :: t ↔
      driver = pod ∧ id = applicationId ∧ recorded = start.spec.stageLedger ∧ x = r := by
  rw [List.mem_cons, or_iff_left (info_not_mem ht)]
  constructor
  · intro h
    cases h
    exact ⟨rfl, rfl, rfl, rfl⟩
  · rintro ⟨rfl, rfl, rfl, rfl⟩
    rfl

end

theorem requests_release {u : Unit} (h : (release pod).run.Ends t (.ok u)) : requests t = t := by
  rcases ends_release_ok h with ⟨-, rfl⟩ | ⟨-, answered, hpatch⟩
  · rfl
  · obtain ⟨_, _, -, ⟨-, rfl, -⟩ | ⟨_, -, rfl⟩⟩ := ends_patchPod_ok.1 hpatch <;> rfl

/-- What the recording of a pod comes to: the pod is tracked and deleted as before, and it is looked
at again if it is a driver that runs, or one whose fetch may succeed later. -/
theorem Merged.tracked
    (h : Merged (opening ns name pod applicationId existing ++ t ++ t₁))
    (hends : (track runningRequeue pod applicationId existing role).run.Ends t
      (.ok (outcome, pod'))) :
    pod'.isTracked = pod.isTracked ∧ pod'.isDeleting = pod.isDeleting ∧
      (outcome = .requeueAfter runningRequeue ∨ outcome = .noRequeue) ∧
      (outcome = .requeueAfter runningRequeue ↔ role = .driver ∧
        (pod.status.bind (·.phase) = some "Running" ∨ pod.isDeleting = false ∧
          ∃ recorded error, (⟨.info pod applicationId recorded,
            (.error error : Except Info.Error Info)⟩ : Exchange Tracking) ∈ t ∧
              error ≠ .noClient)) := by
  rcases ends_track_ok hends with ⟨rfl, rfl, htrack⟩ | ⟨rfl, htrack⟩
  · cases outcome_of_trackExecutor htrack
    exact ⟨rfl, rfl, .inr rfl, ⟨nofun, fun ⟨hrole, _⟩ => nomatch hrole⟩⟩
  · obtain ⟨start, heritage, r, spec, t₂, t₃, stored, rfl, -, hwrite, hown, rfl⟩ :=
      ends_trackDriver_outcome htrack
    have hrequests : requests (t₂ ++ t₃) = t₂ ++ t₃ := by
      rw [requests_append, requests_written (written_of_ends hwrite),
        requests_owned (owned_of_ends hown)]
    have hlast : lastPod? (opening ns name pod applicationId existing ++
        fetching pod applicationId start r :: t₂) = some pod := lastPod?_of_recorded hwrite
    rw [← List.cons_append, ← List.append_assoc] at h
    obtain ⟨htracked, hdeleting⟩ := h.owned hlast hown
    refine ⟨htracked, hdeleting, ite_eq_or_eq .., ?_⟩
    simp only [mem_fetching_cons hrequests, ← isRunning_driverSnapshot start.spec pod, true_and]
    split
    · rename_i hrequeue
      simp only [true_iff]
      refine (requeues_iff.1 hrequeue).imp_right ?_
      rintro ⟨hlive, error, rfl, herror⟩
      exact ⟨hlive, _, error, ⟨rfl, rfl⟩, herror⟩
    · rename_i hstays
      refine ⟨nofun, fun hrequeue => absurd (requeues_iff.2 (hrequeue.imp_right ?_)) hstays⟩
      rintro ⟨hlive, _, error, ⟨-, hr⟩, herror⟩
      exact ⟨hlive, error, hr.symm, herror⟩

/-- After a pod was recorded it is let go if it is being deleted and is not looked at again. -/
theorem Merged.settled
    (h : Merged (opening ns name pod applicationId existing ++ t ++ t₁))
    (htrack : (track runningRequeue pod applicationId existing role).run.Ends t
      (.ok (outcome, pod')))
    (hrelease : if pod'.isDeleting && !outcome.requestsRequeue then
        ∃ u, (release pod').run.Ends t₁ (.ok u)
      else t₁ = []) :
    ∃ last, lastPod? (opening ns name pod applicationId existing ++ t ++ t₁) = some last ∧
      requests t₁ = t₁ ∧ (last.isTracked = true ↔
        pod.isTracked = true ∧ ¬(pod.isDeleting = true ∧ outcome = .noRequeue)) := by
  obtain ⟨htracked, hdeleting, houtcomes, -⟩ := h.tracked htrack
  have hlast : lastPod? (opening ns name pod applicationId existing ++ t) = some pod' := by
    rw [lastPod?_append, lastPod?_opening]
    exact lastPod?_of_track htrack
  split at hrelease
  · rename_i hgoes
    rw [Bool.and_eq_true, hdeleting, Bool.not_eq_true'] at hgoes
    have hdone : outcome = .noRequeue := houtcomes.resolve_left fun houtcome => by
      rw [houtcome] at hgoes
      cases hgoes.2
    obtain ⟨u, hrelease⟩ := hrelease
    obtain ⟨last, hlast, hfree⟩ := h.released hlast hrelease
    refine ⟨last, hlast, requests_release hrelease, ?_⟩
    simp [hfree, hdone, hgoes.1]
  · rename_i hkept
    subst hrelease
    refine ⟨pod', by rwa [List.append_nil], rfl, ?_⟩
    rw [htracked, iff_self_and]
    rintro - ⟨hgoes, rfl⟩
    exact hkept (by rw [hdeleting, hgoes]; rfl)

/-- A pod that is being deleted is held back only by a driver that runs while its record is there or
the record does not own it. A driver that runs is looked at again, and so is one that is not being
deleted after a fetch that may succeed later. Nothing else is looked at again without a change. -/
theorem held_only_while_running (hmerged : Merged t)
    (hends : (reconcile runningRequeue ns name).run.Ends t (.ok outcome))
    (hread : t.head? = some ⟨.getPod ns name, (.ok (some pod) : Except Kube.Error (Option Pod))⟩)
    (hmember : pod.member? = some (applicationId, role))
    (hheld : pod.isTracked = true ∨ pod.isDeleting = true) :
    ∃ existing pod', opening ns name pod applicationId existing <+: t ∧
      lastPod? t = some pod' ∧
      (pod'.isTracked = true ↔ pod.isTracked = true ∧ ¬(pod.isDeleting = true ∧
        (role = .executor ∨
          role = .driver ∧ pod.status.bind (·.phase) ≠ some "Running" ∨
          role = .driver ∧ existing = none ∧ pod.isOwnedBy applicationId = true))) ∧
      (outcome = .requeueAfter runningRequeue ↔ role = .driver ∧
        ¬(pod.isDeleting = true ∧ existing = none ∧ pod.isOwnedBy applicationId = true) ∧
        (pod.status.bind (·.phase) = some "Running" ∨ pod.isDeleting = false ∧
          ∃ recorded error, (⟨.info pod applicationId recorded,
            (.error error : Except Info.Error Info)⟩ : Exchange Tracking) ∈ t ∧
              error ≠ .noClient)) ∧
      (outcome = .requeueAfter runningRequeue ∨ outcome = .noRequeue) := by
  obtain ⟨t, rfl⟩ := List.head?_eq_some_iff.1 hread
  have hends := (ends_reconcile_of_member hmember).1 hends
  rw [reconcileMember_of_held runningRequeue ns name applicationId role hheld] at hends
  obtain ⟨existing, t, rfl, hrest⟩ := ends_reconcileTracked_ok hends
  change Merged (opening ns name pod applicationId existing ++ t) at hmerged
  refine ⟨existing, ?_⟩
  split at hrest
  · rename_i hgone
    rw [Bool.and_eq_true, Bool.and_eq_true, Option.isNone_iff_eq_none] at hgone
    obtain ⟨⟨rfl, hdeleting⟩, hgoes⟩ := hgone
    obtain ⟨rfl, u, hrelease⟩ := hrest
    obtain ⟨pod', hlast, hfree⟩ := hmerged.released lastPod?_opening hrelease
    refine ⟨pod', List.prefix_append (opening ..) t, hlast, ?_, ?_, .inr rfl⟩
    all_goals
      cases role with
      | executor => simp [hfree, hdeleting]
      | driver =>
        have howned : pod.isOwnedBy applicationId = true := hgoes
        simp [hfree, hdeleting, howned]
  · rename_i hstays
    have hdriver (hrole : role = .driver) :
        ¬(pod.isDeleting = true ∧ existing = none ∧ pod.isOwnedBy applicationId = true) := by
      rintro ⟨hdeleting, rfl, howned⟩
      exact hstays (by simp [hdeleting, hrole, goesWithRecord, howned])
    obtain ⟨pod', t₁, t₂, rfl, htrack, hrelease⟩ := hrest
    rw [← List.append_assoc] at hmerged
    obtain ⟨-, -, houtcomes, hrequeue⟩ := hmerged.tracked htrack
    obtain ⟨last, hlast, hrequests, htracked⟩ := hmerged.settled htrack hrelease
    have hfetched (recorded : Option Ledger) (error : Info.Error) :
        (⟨.info pod applicationId recorded, (.error error : Except Info.Error Info)⟩ :
          Exchange Tracking) ∈ opening ns name pod applicationId existing ++ (t₁ ++ t₂) ↔
        (⟨.info pod applicationId recorded, (.error error : Except Info.Error Info)⟩ :
          Exchange Tracking) ∈ t₁ := by
      rw [List.mem_append, List.mem_append, or_iff_right (info_not_mem rfl),
        or_iff_left (info_not_mem hrequests)]
    refine ⟨last, List.prefix_append (opening ..) (t₁ ++ t₂), ?_, ?_, ?_, houtcomes⟩
    · rwa [List.append_assoc] at hlast
    · have hdone : outcome = .noRequeue ↔ outcome ≠ .requeueAfter runningRequeue := by
        rcases houtcomes with rfl | rfl <;> simp
      rw [htracked, hdone, ne_eq, hrequeue]
      refine and_congr_right' (not_congr (and_congr_right fun hdeleting => ?_))
      cases role with
      | executor => simp
      | driver =>
        have hnot := hdriver rfl
        simp only [hdeleting, true_and] at hnot ⊢
        simp [hnot]
    · rw [hrequeue]
      refine and_congr_right fun hrole => ?_
      rw [and_iff_right (hdriver hrole)]
      exact or_congr_right (and_congr_right' (exists_congr fun recorded =>
        exists_congr fun error => and_congr_left' (hfetched recorded error).symm))

/-! ## A driver whose application cannot be asked for -/

/-- A driver that is being deleted and that its record owns. -/
def dismissedDriver : Pod :=
  { leavingDriver with
    metadata.ownerReferences := some [⟨"spark-tracker.dev/v1alpha1", "SparkApplication", "app",
      "app-uid", some false, some true⟩]
    metadata.resourceVersion := some "1" }

/-- The record of that driver. -/
def dismissedRecord : Application :=
  { Application.template "spark" "app" with
    spec.applicationName := "wordcount"
    spec.heritage := some .submit
    spec.driver := some (.ofPod dismissedDriver) }

/-- A fetch that fails, but may succeed later. -/
def outage : Except Info.Error Info := .error (.api (.transport (.http (some 503))))

/-- The fetch fails, and the driver is let go all the same. -/
theorem held_only_while_running_dismissed :
    ∃ t last, (reconcile .ten "spark" "driver").run.Ends t (.ok .noRequeue) ∧
      fetching dismissedDriver "app" dismissedRecord outage ∈ t ∧ lastPod? t = some last ∧
      dismissedDriver.isTracked = true ∧ last.isTracked = false := by
  let p := (Object.conditionalPatch? dismissedDriver dismissedDriver.released).get rfl
  let released := dismissedDriver.released.under (some "2")
  let t := opening "spark" "driver" dismissedDriver "app" (some dismissedRecord) ++
    [fetching dismissedDriver "app" dismissedRecord outage,
      ⟨.patchPod "spark" "driver" p, (.ok released : Except Kube.Error Pod)⟩]
  have hread : Pod.ofJson? dismissedDriver.toJson = some dismissedDriver :=
    Pod.faithful.read_write _
  have hmerged : Merged t := by
    intro t₁ t₂ ns name p' answered ht
    dsimp only [t, opening, fetching, List.cons_append, List.nil_append] at ht
    rcases t₁ with _ | ⟨_, _ | ⟨_, _ | ⟨_, _ | ⟨_, t₁⟩⟩⟩⟩
    all_goals
      simp only [List.cons_append, List.nil_append, List.cons.injEq] at ht
    · cases ht.1
    · cases ht.2.1
    · cases ht.2.2.1
    · obtain ⟨rfl, rfl, rfl, hpatch, -⟩ := ht
      cases hpatch
      have hmeta := Object.hasMetadata_toJson dismissedDriver
      exact ⟨dismissedDriver, dismissedDriver.toJson, "2", rfl, (Pod.faithful.plain _).isValue,
        hread, (Pod.turned_merge hmeta hread (.of_finalizers _ _) rfl "2").2⟩
    · exact absurd ht.2.2.2.2 (by simp)
  have hends : (reconcile .ten "spark" "driver").run.Ends t (.ok .noRequeue) :=
    ⟨_, _, rfl, _, _, rfl, _, _, rfl, _, _, rfl, rfl, rfl⟩
  have hmember : dismissedDriver.member? = some ("app", .driver) := rfl
  obtain ⟨existing, last, -, hlast, htracked, -⟩ :=
    held_only_while_running hmerged hends rfl hmember (.inl rfl)
  have hreleased : last.isTracked = false := by
    rw [Bool.eq_false_iff, ne_eq, htracked]
    rintro ⟨-, hkept⟩
    exact hkept ⟨rfl, .inr (.inl ⟨rfl, nofun⟩)⟩
  exact ⟨t, last, hends, .tail _ (.tail _ (.head _)), hlast, rfl, hreleased⟩

end Tracker

end SparkLedger

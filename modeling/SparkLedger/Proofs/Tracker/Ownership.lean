import SparkLedger.Proofs.Tracker.Alone
import SparkLedger.Proofs.Tracker.Heritage
import SparkLedger.Proofs.Tracker.Release

/-!
# The owners of pods

Reconciles never touch the owners that a pod has. They give an owner to a driver that has none,
unless the operator has launched its application, and every reconcile of such a driver that succeeds
has seen to it.

* `Pod.Adopted`: a driver that nobody owned is given an owner. `Sound.owners_step`: a step of a
  reconcile keeps the owners of every pod, or gives one to its driver.
* `Recorded.exists_owned`: what a driver's reconcile that succeeds with a record has exchanged.
  `owners_of_ends`: whom the pod belongs to after a driver's reconcile has succeeded.
* `owners_are_safe`: both, for any run beside others that write the pods.
-/

namespace SparkLedger

namespace Pod

/-- The owners in the document of a pod. -/
def owners? (j : Json) : Option Json := j.at? ["metadata", "ownerReferences"]

/-- A driver that nobody owned is given an owner. -/
structure Adopted (pod pod' : Pod) (applicationId : String) : Prop where
  member : pod.member? = some (applicationId, .driver)
  free : pod.metadata.ownerReferences.getD [] = []
  owned : ∃ reference, pod'.metadata.ownerReferences = some [reference]

end Pod

theorem Application.Heritage.allowsOwnership_iff {h : Application.Heritage} :
    h.allowsOwnership = true ↔ h ≠ .operator := by
  cases h <;> decide

namespace Tracker

open Dialogue (Transcript Exchange)
open Application (Heritage)
open Object (HasMetadata)
open Server (recordRead)

variable {S : Setup} {application : Option Application} {y y' : Yard} {i : Nat}
  {pod old new pod' : Pod} {t t₁ t₂ : Transcript Tracking}

/-! ## Steps -/

/-- A change of the finalizers keeps the owners in the document. -/
theorem Slot.Knows.owners?_applied {s s' : Slot} {place : String × String} {j : Json}
    {version : String} (h : s.Knows place j old) (hsurgery : old.Surgery "finalizers" new)
    (happlied : s.Applied j old new version s') :
    ∃ j', s'.stored = some j' ∧ Pod.owners? j' = Pod.owners? j := by
  obtain ⟨p, hp, -, -, rfl⟩ := happlied
  obtain ⟨ms, metadata, hmeta⟩ := h.metadata
  refine ⟨_, rfl, ?_⟩
  rw [hsurgery.merge_eq_amend hmeta h.read hp, Object.withMetadata_eq_amend, Pod.owners?,
    (hmeta.amend _).at?_amend rfl, hmeta.at?_amend rfl]
  rfl

/-- A step of a reconcile keeps the owners of every pod, or gives one to its driver. -/
theorem Yard.Sound.owners_step
    (happlication : ∀ a, application = some a → a.metadata.identity? = some S.record)
    (hrun : S.Run (Setup.start application) y.world) (h : y.Sound S)
    (hstep : S.YardStep y (some i) y') (place : String × String) :
    y'.pods place = y.pods place ∨
      ∃ j j', (y.pods place).stored = some j ∧ (y'.pods place).stored = some j' ∧
        (Pod.owners? j' = Pod.owners? j ∨
          ∃ pod pod' applicationId, Pod.ofJson? j = some pod ∧ Pod.ofJson? j' = some pod' ∧
            pod.Adopted pod' applicationId ∧
            ((place.1, applicationId) = S.record →
              ∃ heritage, y.world.heritage? = some heritage ∧ heritage ≠ .operator)) := by
  rcases h.pods_step hstep with
    hsame | ⟨j, old, new, version, slot, hedit, -, hknows, happlied, hpods⟩
  · exact .inl (congrFun hsame place)
  by_cases hplace : place = S.pods i
  · subst hplace
    have hstored : (y.pods (S.pods i)).stored = some j := by
      obtain ⟨_, -, hstored, -⟩ := happlied
      exact hstored
    rw [hpods, Function.update_self]
    rcases hedit.finalizers_or_owner with hsurgery | ⟨applicationId, existing, start, heritage, r,
        spec, t', stored, reference, hsaid, hmember, hrecording, hwrite, hallows, -, hfree, rfl⟩
    · obtain ⟨j', hj', howners⟩ := hknows.owners?_applied hsurgery happlied
      exact .inr ⟨j, j', hstored, hj', .inl howners⟩
    · have hsurgery := Pod.Surgery.own hfree reference
      obtain ⟨-, j', hj', hknows'⟩ := hknows.applied hsurgery.change happlied
      refine .inr ⟨j, j', hstored, hj', .inr ⟨old, _, applicationId, hknows.read, hknows'.read,
        ⟨hmember, hfree, reference, rfl⟩, fun hrecord => ⟨heritage, ?_, ?_⟩⟩⟩
      · exact heritage?_of_written happlication hrun hknows.named hrecord hrecording hwrite
          ⟨[], (List.append_nil _).trans hsaid.symm⟩
      · exact Heritage.allowsOwnership_iff.1 hallows
  · rw [hpods, Function.update_of_ne hplace]
    exact .inl rfl

/-! ## Reconciles that succeed -/

/-- Letting a pod go keeps its owners. -/
theorem Yard.Chained.owners_of_release (h : y.Chained) (hlast : lastPod? t₁ = some pod)
    (hrelease : t₂ = [] ∨ ∃ u, (release pod).run.Ends t₂ (.ok u))
    (hsaid : y.world.said i = t₁ ++ t₂) :
    ∃ pod', lastPod? (y.world.said i) = some pod' ∧
      pod'.metadata.ownerReferences = pod.metadata.ownerReferences := by
  rw [hsaid, lastPod?_append, hlast]
  rcases hrelease with rfl | ⟨u, hends⟩
  · exact ⟨pod, rfl, rfl⟩
  rcases ends_release_ok hends with ⟨-, rfl⟩ | ⟨-, pod', hpatch⟩
  · exact ⟨pod, rfl, rfl⟩
  · refine ⟨pod', lastPod?_of_patches hpatch, ?_⟩
    have hprefix : t₁ ++ t₂ <+: y.world.said i := hsaid ▸ List.prefix_rfl
    obtain ⟨version, rfl⟩ := h.eq_under hlast (.of_finalizers pod _) hpatch hprefix
    rfl

theorem hasOwners_eq_false_iff :
    hasOwners pod = false ↔ pod.metadata.ownerReferences.getD [] = [] := by
  rw [hasOwners, Bool.not_eq_false', List.isEmpty_iff]

/-- Once its record is written, a driver belongs to those it belonged to before, or else to its
record. -/
theorem Yard.Chained.owners_of_ownDriver (h : y.Chained) {applicationId : String}
    {heritage : Heritage} {stored : Application} {reference : Object.OwnerReference}
    (hown : (ownDriver pod applicationId heritage stored).run.Ends t₂ (.ok pod'))
    (hallows : heritage.allowsOwnership = true)
    (hreference : stored.ownerReference? = some reference)
    (hlast : lastPod? t₁ = some pod) (hsaid : t₁ ++ t₂ <+: y.world.said i) :
    pod'.metadata.ownerReferences =
      if pod.metadata.ownerReferences.getD [] = [] then some [reference]
      else pod.metadata.ownerReferences := by
  rcases ends_ownDriver_ok hown with ⟨-, rfl, howned⟩ | ⟨reference', -, hfree, hreference', hpatch⟩
  · have hne : ¬ pod'.metadata.ownerReferences.getD [] = [] := by
      rw [← hasOwners_eq_false_iff, howned reference hreference hallows]
      exact Bool.noConfusion
    rw [if_neg hne]
  · cases hreference.symm.trans hreference'
    obtain ⟨version, rfl⟩ :=
      h.eq_under hlast (Pod.change_owned pod (some reference)) hpatch hsaid
    rw [if_pos (hasOwners_eq_false_iff.1 hfree)]
    rfl

section

variable {ns name applicationId : String} {existing : Option Application}
  {start application' stored a : Application} {r : Except Info.Error Info}

theorem isSome_pod?_of_patches (h : (patchPod old new).Ends t (.ok pod)) {e : Exchange Tracking}
    (he : e ∈ t) : e.question.pod?.isSome := by
  obtain ⟨ns, name, -, ⟨-, rfl, -⟩ | ⟨p, -, rfl⟩⟩ := ends_patchPod_ok.1 h
  · cases he
  · cases List.mem_singleton.1 he
    rfl

theorem isSome_pod?_of_release (h : t = [] ∨ ∃ u, (release pod).run.Ends t (.ok u))
    {e : Exchange Tracking} (he : e ∈ t) : e.question.pod?.isSome := by
  rcases h with rfl | ⟨u, hends⟩
  · cases he
  rcases ends_release_ok hends with ⟨-, rfl⟩ | ⟨-, pod', hpatch⟩
  · cases he
  · exact isSome_pod?_of_patches hpatch he

theorem isSome_pod?_of_ownDriver {heritage : Heritage}
    (h : (ownDriver pod applicationId heritage stored).run.Ends t (.ok pod'))
    {e : Exchange Tracking} (he : e ∈ t) : e.question.pod?.isSome := by
  rcases ends_ownDriver_ok h with ⟨rfl, -⟩ | ⟨_, -, -, -, hpatch⟩
  · cases he
  · exact isSome_pod?_of_patches hpatch he

/-- What is exchanged about pods tells nothing of a record, and neither does a record that is not
there. -/
theorem not_recorded {place : String × String} (h : ∀ e ∈ t, e.question.pod?.isSome ∨
    ∃ ns name, e = recordRead ns name none) : ¬ Recorded place a t := by
  rintro (⟨e, he, hwrites⟩ | ⟨hread, -⟩)
  · rcases h e he with hpod | ⟨_, _, rfl⟩
    · cases hwrites <;> cases hpod
    · cases hwrites
  · rcases h _ hread with hpod | ⟨_, _, hnone⟩
    · cases hpod
    · cases hnone

theorem Exchange.Writes.unique {place place' : String × String} {b : Application}
    {e : Exchange Tracking} (h : Exchange.Writes place a e) (h' : Exchange.Writes place' b e) :
    a = b := by
  obtain ⟨ns, name⟩ := place
  obtain ⟨ns', name'⟩ := place'
  cases h <;> cases h' <;> rfl

/-- Between the fetch and what is exchanged about pods is what changes the record. -/
theorem mem_of_isChange {e : Exchange Tracking}
    (he : e ∈ opening ns name pod applicationId existing ++
      fetching pod applicationId start r :: (t₁ ++ t₂))
    (hpods : ∀ e ∈ t₂, e.question.pod?.isSome) (hchange : e.question.isChange = true) :
    e ∈ t₁ := by
  rcases List.mem_append.1 he with he | he
  · cases (isChange_of_mem_opening he).symm.trans hchange
  rcases List.mem_cons.1 he with rfl | he
  · cases hchange
  refine (List.mem_append.1 he).resolve_right fun he => ?_
  have hpod := hpods e he
  obtain ⟨q, a⟩ := e
  cases q with
  | createApplication => cases hpod
  | patchApplication => cases hpod
  | _ => cases hchange

/-- The record is what the write has given, or what was read if there was nothing to write. -/
theorem Recorded.eq_stored {place : String × String}
    (h : Recorded place a (opening ns name pod applicationId existing ++
      fetching pod applicationId start r :: (t₁ ++ t₂)))
    (hwrite : (writeApplication existing application').run.Ends t₁ (.ok stored))
    (hpods : ∀ e ∈ t₂, e.question.pod?.isSome) : a = stored := by
  rcases ends_writeApplication_ok hwrite with ⟨hsame, rfl, rfl⟩ | ⟨e', place', rfl, -, hwrites'⟩
  · rcases h with ⟨e, he, hwrites⟩ | ⟨hread, -⟩
    · cases mem_of_isChange he hpods hwrites.isChange
    simp only [opening, List.nil_append, List.mem_append, List.mem_cons, List.not_mem_nil,
      or_false] at hread
    rcases hread with (hread | hread) | hread | hread
    · cases hread
    · cases hread
      exact Option.some.inj hsame
    · cases hread
    · cases hpods _ hread
  · rcases h with ⟨e, he, hwrites⟩ | ⟨-, hunchanged⟩
    · cases List.mem_singleton.1 (mem_of_isChange he hpods hwrites.isChange)
      exact hwrites.unique hwrites'
    · cases (hunchanged e' (by simp)).symm.trans hwrites'.isChange

/-- A reconcile that succeeds with a record has tracked its pod, and may have let it go. -/
theorem Recorded.exists_tracked {runningRequeue : Seconds} {outcome : Outcome}
    {place : String × String} (h : Recorded place a t)
    (hends : (reconcile runningRequeue ns name).run.Ends t (.ok outcome)) :
    ∃ pod applicationId role existing outcome' tracked t₁ t₂,
      t = opening ns name pod applicationId existing ++ t₁ ++ t₂ ∧
      pod.member? = some (applicationId, role) ∧
      (track runningRequeue pod applicationId existing role).run.Ends t₁
        (.ok (outcome', tracked)) ∧
      (t₂ = [] ∨ ∃ u, (release tracked).run.Ends t₂ (.ok u)) := by
  obtain ⟨pod?, t', rfl, ⟨-, rfl⟩ | ⟨pod, id, role, rfl, hmember, hrest⟩⟩ := ends_reconcile_ok hends
  · refine absurd h (not_recorded fun e he => ?_)
    cases List.mem_singleton.1 he
    exact .inl rfl
  rcases hrest with ⟨held, hpatch⟩ |
    ⟨existing, t'', rfl, ⟨rfl, u, hrelease⟩ | ⟨outcome', tracked, t₁, t₂, rfl, htrack, hrelease⟩⟩
  · refine absurd h (not_recorded fun e he => .inl ?_)
    rcases List.mem_cons.1 he with rfl | he
    · rfl
    · exact isSome_pod?_of_patches hpatch he
  · refine absurd h (not_recorded fun e he => ?_)
    rcases List.mem_cons.1 he with rfl | he
    · exact .inl rfl
    rcases List.mem_cons.1 he with rfl | he
    · exact .inr ⟨_, _, rfl⟩
    · exact .inl (isSome_pod?_of_release (.inr ⟨u, hrelease⟩) he)
  · exact ⟨pod, id, role, existing, outcome', tracked, t₁, t₂, rfl, hmember, htrack, hrelease⟩

/-- Of a driver, it has fetched, has written the record if that was called for, and has seen to the
owner. -/
theorem Recorded.exists_owned {runningRequeue : Seconds} {outcome : Outcome}
    {place : String × String} (h : Recorded place a t)
    (hends : (reconcile runningRequeue ns name).run.Ends t (.ok outcome))
    (hfirst : ∀ e t' pod', t = e :: t' → podOf? e = some pod' → pod' = pod)
    (hmember : pod.member? = some (applicationId, .driver)) :
    ∃ existing start heritage r spec w₁ w₂ t₂ owned,
      t = opening ns name pod applicationId existing ++
        fetching pod applicationId start r :: (w₁ ++ w₂) ++ t₂ ∧
      lastPod? (opening ns name pod applicationId existing ++
        fetching pod applicationId start r :: (w₁ ++ w₂)) = some owned ∧
      Recording pod applicationId existing start heritage r spec ∧
      (writeApplication existing { start with spec }).run.Ends w₁ (.ok a) ∧
      (ownDriver pod applicationId heritage a).run.Ends w₂ (.ok owned) ∧
      (t₂ = [] ∨ ∃ u, (release owned).run.Ends t₂ (.ok u)) := by
  obtain ⟨pod', id, role, existing, outcome', owned, t₁, t₂, rfl, hmember', htrack, hrelease⟩ :=
    h.exists_tracked hends
  cases hfirst _ _ _ rfl rfl
  cases hmember.symm.trans hmember'
  have hlast : lastPod? (opening ns name pod applicationId existing ++ t₁) = some owned := by
    rw [lastPod?_append, lastPod?_opening]
    exact lastPod?_of_track htrack
  rcases ends_track_ok htrack with ⟨hrole, -⟩ | ⟨-, hdriver⟩
  · cases hrole
  obtain ⟨start, heritage, r, spec, w₁, w₂, stored, rfl, hrecording, hwrite, hown⟩ :=
    ends_trackDriver_ok hdriver
  have hstored : a = stored := by
    rw [List.append_assoc, List.cons_append, List.append_assoc] at h
    refine h.eq_stored hwrite fun e he => ?_
    rcases List.mem_append.1 he with he | he
    · exact isSome_pod?_of_ownDriver hown he
    · exact isSome_pod?_of_release hrelease he
  subst hstored
  exact ⟨existing, start, heritage, r, spec, w₁, w₂, t₂, owned, rfl, hlast, hrecording, hwrite,
    hown, hrelease⟩

end

/-- Whom a driver belongs to after its reconcile has succeeded, if its record can be referred to and
is not the operator's: to those it belonged to before, or else to its record. -/
theorem Yard.Chained.owners_of_ends
    (happlication : ∀ a, application = some a → a.metadata.identity? = some S.record)
    (hrun : S.Run (Setup.start application) y.world) (h : y.Chained)
    (hns : (S.pods i).1 = S.record.1)
    (hfirst : ∀ e t pod', y.world.said i = e :: t → podOf? e = some pod' → pod' = pod)
    (hnamed : pod.metadata.identity? = some (S.pods i))
    (hmember : pod.member? = some (S.record.2, .driver)) {outcome : Outcome}
    (hends : (S.work i).Ends (y.world.said i) (.ok outcome)) {a : Application}
    (ha : Recorded S.record a (y.world.said i)) {reference : Object.OwnerReference}
    (hreference : a.ownerReference? = some reference) {heritage : Heritage}
    (hheritage : y.world.heritage? = some heritage) (hne : heritage ≠ .operator) :
    ∃ pod', lastPod? (y.world.said i) = some pod' ∧ pod'.metadata.ownerReferences =
      if pod.metadata.ownerReferences.getD [] = [] then some [reference]
      else pod.metadata.ownerReferences := by
  obtain ⟨existing, start, heritage', r, spec, w₁, w₂, t₂, owned, hsaid, hlast, hrecording, hwrite,
    hown, hrelease⟩ := ha.exists_owned hends hfirst hmember
  obtain ⟨pod', hpod', howners⟩ := h.owners_of_release hlast hrelease hsaid
  refine ⟨pod', hpod', howners.trans ?_⟩
  have hwritten : opening (S.pods i).1 (S.pods i).2 pod S.record.2 existing ++
      fetching pod S.record.2 start r :: w₁ ++ w₂ <+: y.world.said i := by
    rw [hsaid]
    simp
  have hrecord : ((S.pods i).1, S.record.2) = S.record := Prod.ext hns rfl
  have hlaunched : y.world.heritage? = some heritage' :=
    heritage?_of_written happlication hrun hnamed hrecord hrecording hwrite
      ((List.prefix_append ..).trans hwritten)
  cases hheritage.symm.trans hlaunched
  exact h.owners_of_ownDriver hown (Heritage.allowsOwnership_iff.2 hne) hreference
    (lastPod?_of_recorded hwrite) hwritten

/-! ## Runs -/

/-- Whoever else writes the pods, a step of a reconcile keeps the owners of every pod, or it gives
one to a driver that has none, and whose record does not say that the operator launched it. While
nobody else writes its pod, a driver's reconcile that has recorded the driver and succeeds leaves it
with the owners it had, or with its record as the only one. -/
theorem owners_are_safe {pods : String × String → Option Json}
    (happlication : ∀ a, application = some a → a.metadata.identity? = some S.record)
    (hpods : Setup.Stocked pods) (hrun : S.YardRun (Setup.yard application pods) y) (i : Nat) :
    (∀ y', S.YardStep y (some i) y' → ∀ place, y'.pods place = y.pods place ∨
      ∃ j j', (y.pods place).stored = some j ∧ (y'.pods place).stored = some j' ∧
        (Pod.owners? j' = Pod.owners? j ∨
          ∃ pod pod' applicationId, Pod.ofJson? j = some pod ∧ Pod.ofJson? j' = some pod' ∧
            pod.Adopted pod' applicationId ∧
            ((place.1, applicationId) = S.record →
              ∃ heritage, y.world.heritage? = some heritage ∧ heritage ≠ .operator))) ∧
    ∀ y' j pod outcome a name uid heritage, y.world.said i = [] → S.AloneRun i y y' →
      (y.pods (S.pods i)).stored = some j → Pod.ofJson? j = some pod →
      (S.pods i).1 = S.record.1 → pod.member? = some (S.record.2, .driver) →
      (S.work i).Ends (y'.world.said i) (.ok outcome) → Recorded S.record a (y'.world.said i) →
      a.metadata.name = some name → a.metadata.uid = some uid →
      y'.world.heritage? = some heritage → heritage = .submit ∨ heritage = .jupyter →
        ∃ j' pod', (y'.pods (S.pods i)).stored = some j' ∧ Pod.ofJson? j' = some pod' ∧
          pod'.metadata.ownerReferences.getD [] ≠ [] ∧
          pod'.metadata.ownerReferences =
            if pod.metadata.ownerReferences.getD [] = [] then
              some [⟨"spark-tracker.dev/v1alpha1", "SparkApplication", name, uid, some false,
                some true⟩]
            else pod.metadata.ownerReferences := by
  have hsound : y.Sound S := sound_run hpods hrun
  refine ⟨fun y' hstep => hsound.owners_step happlication hrun.world hstep, ?_⟩
  intro y' j pod outcome a name uid heritage hsaid halone hstored hread hns hmember hends ha hname
    huid hheritage hlaunched
  have hnamed := (hsound.kept _ j pod hstored hread).named
  obtain ⟨hknown, hsound', hchained⟩ := hsound.alone_run (Yard.chained_run hpods hrun) hsaid halone
  have hreference : a.ownerReference? = some ⟨"spark-tracker.dev/v1alpha1", "SparkApplication",
      name, uid, some false, some true⟩ := by
    rw [Application.ownerReference?, hname, huid]
    rfl
  have hne : heritage ≠ .operator := by
    rcases hlaunched with rfl | rfl <;> decide
  have hfirst : ∀ e t pod', y'.world.said i = e :: t → podOf? e = some pod' → pod' = pod := by
    intro e t pod' hbegins hpod'
    obtain ⟨j', hj', hread'⟩ := hknown.first e t pod' hbegins hpod'
    cases hstored.symm.trans hj'
    exact Option.some.inj (hread'.symm.trans hread)
  obtain ⟨pod', hlast, howners⟩ := hchained.owners_of_ends happlication
    (hrun.world.trans halone.run.world) hns hfirst hnamed hmember hends ha hreference hheritage hne
  obtain ⟨j', hseen, hknows⟩ := hsound'.exists_knows hlast
  refine ⟨j', pod', ?_, hknows.read, ?_, howners⟩
  · refine (hknown.last j' hseen).resolve_right fun ⟨failure, hfailed⟩ => ?_
    cases Dialogue.eq_of_ends hends hfailed
  · rw [howners]
    split
    · exact List.cons_ne_nil _ _
    · assumption

open Setup (pair pairPod yard)

/-- The driver of the pair, as it is stored. -/
def storedDriver : Pod := { pairPod "driver" with metadata.resourceVersion := some "1" }

/-- A record that says all there is to say of that driver. -/
def launchedRecord : Application :=
  { Application.template "spark" "app" with
    metadata.uid := some "app-uid"
    metadata.resourceVersion := some "1"
    spec.applicationName := "pi"
    spec.heritage := some .submit
    spec.driver := some (.ofPod storedDriver) }

/-- The record is up to date, and the driver lacks its owner only. -/
theorem owners_are_safe_launched :
    let pods place := if place = ("spark", "driver") then some storedDriver.toJson else none
    ∃ y outcome j' pod', pair.AloneRun 0 (yard (some launchedRecord) pods) y ∧
      (pair.work 0).Ends (y.world.said 0) (.ok outcome) ∧
      (y.pods ("spark", "driver")).stored = some j' ∧ Pod.ofJson? j' = some pod' ∧
      pod'.metadata.ownerReferences = some [⟨"spark-tracker.dev/v1alpha1", "SparkApplication",
        "app", "app-uid", some false, some true⟩] := by
  intro pods
  have hread : Pod.ofJson? storedDriver.toJson = some storedDriver := Pod.faithful.read_write _
  have hpods : Setup.Stocked pods := by
    intro place j hj
    dsimp only [pods] at hj
    split at hj
    · rename_i hplace
      cases hj
      refine ⟨(Pod.faithful.plain _).isValue, fun pod hpod => ?_⟩
      cases hread.symm.trans hpod
      exact congrArg some hplace.symm
    · cases hj
  have happlication : ∀ a, some launchedRecord = some a →
      a.metadata.identity? = some pair.record := by
    intro a ha
    cases ha
    rfl
  let reference : Object.OwnerReference := ⟨"spark-tracker.dev/v1alpha1", "SparkApplication", "app",
    "app-uid", some false, some true⟩
  let owned := storedDriver.owned (some reference)
  let p := (Object.conditionalPatch? storedDriver owned).get rfl
  have hp : Object.conditionalPatch? storedDriver owned = some p := rfl
  let y₀ := yard (some launchedRecord) pods
  let slot : Slot := ⟨some storedDriver.toJson, ["1"]⟩
  let y₁ := y₀.tell 0 ⟨.getPod "spark" "driver",
    (.ok (some storedDriver) : Except Kube.Error (Option Pod))⟩ ("spark", "driver") slot
  let y₂ : Yard := { y₁ with world := y₁.world.tell 0 (readOf "spark" "app" launchedRecord) }
  let y₃ : Yard := { y₂ with
    world := y₂.world.tell 0 (fetching storedDriver "app" launchedRecord (.error .noClient)) }
  let slot' := slot.put "2" (p.merge storedDriver.toJson)
  let y₄ := y₃.tell 0 ⟨.patchPod "spark" "driver" p,
    (.ok (owned.under (some "2")) : Except Kube.Error Pod)⟩ ("spark", "driver") slot'
  have h₁ : pair.YardStep y₀ (some 0) y₁ :=
    .asked (.inl ⟨rfl, rfl⟩) rfl (.inl (.read "spark" "driver"))
  have h₂ : pair.YardStep y₁ (some 0) y₂ :=
    .aside (.heard (.inr ⟨_, _, rfl, .inl ⟨rfl, rfl⟩⟩) (.read rfl)) rfl rfl
  have h₃ : pair.YardStep y₂ (some 0) y₃ :=
    .aside (.heard (.inr ⟨_, _, rfl, .inr ⟨_, _, rfl, .inl ⟨rfl, rfl⟩⟩⟩)
      (.elsewhere nofun trivial)) rfl rfl
  have hreread : Pod.ofJson? (Cluster.withMetadata "resourceVersion" "2"
      (p.merge storedDriver.toJson)) = some (owned.under (some "2")) := by
    have hmeta := Object.hasMetadata_toJson storedDriver
    exact (Pod.turned_merge hmeta hread (Pod.change_owned _ _) hp "2").2
  have hanswer : shown Pod.ofJson? (Cluster.withMetadata "resourceVersion" "2"
      (p.merge storedDriver.toJson)) = .ok (owned.under (some "2")) := by
    rw [shown, hreread]
  have hpatched : slot.Serves (.patchPod "spark" "driver" p)
      (.ok (owned.under (some "2")) : Except Kube.Error Pod) slot' :=
    hanswer ▸ .patched rfl rfl (by decide)
  have h₄ : pair.YardStep y₃ (some 0) y₄ :=
    .asked (.inr ⟨_, _, rfl, .inr ⟨_, _, rfl, .inr ⟨_, _, rfl, .inl ⟨rfl, rfl⟩⟩⟩⟩) rfl
      (.inl hpatched)
  have halone : pair.AloneRun 0 y₀ y₄ :=
    .tail (.tail (.tail (.single ⟨_, h₁, .inl rfl⟩) ⟨_, h₂, .inl rfl⟩) ⟨_, h₃, .inl rfl⟩)
      ⟨_, h₄, .inl rfl⟩
  obtain ⟨outcome, hends⟩ : ∃ outcome, (pair.work 0).Ends (y₄.world.said 0) (.ok outcome) :=
    ⟨_, _, _, rfl, _, _, rfl, _, _, rfl, _, _, rfl, rfl, rfl⟩
  -- Nothing was written, so the record is the one that was read.
  have hrecorded : Recorded pair.record launchedRecord (y₄.world.said 0) := by
    have hunchanged : (y₄.world.said 0).all (fun e => !e.question.isChange) = true := rfl
    refine .inr ⟨.tail _ (.head _), fun e he => ?_⟩
    simpa using List.all_eq_true.1 hunchanged e he
  obtain ⟨-, hsafe⟩ := owners_are_safe happlication hpods (.refl : pair.YardRun y₀ y₀) 0
  obtain ⟨j', pod', hstored, hread', -, howners⟩ := hsafe y₄ _ storedDriver outcome launchedRecord
    "app" "app-uid" .submit rfl halone rfl hread rfl rfl hends hrecorded rfl rfl rfl (.inl rfl)
  exact ⟨y₄, outcome, j', pod', halone, hends, hstored, hread', howners⟩

end Tracker

end SparkLedger

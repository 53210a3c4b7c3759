import SparkLedger.Proofs.Tracker.Discipline
import SparkLedger.Proofs.Tracker.Yard

/-!
# Surgical edits of pods

A reconcile reads a few members of a pod's document and writes two lists as a whole, and yet it
changes nothing of the document but these lists, and loses nothing that others have put there
meanwhile: a patch that was made from an older document is refused, and the reconcile fails.

* `Pod.Operation`: the document of a pod before and after one change of the pod.
* `Yard.Outdated`: a pod was written by others after a reconcile has seen it. `Outdated.run`: it
  stays so. `Outdated.pods_step`: the reconcile does not change the pod any more.
* `pods_are_edited_surgically`: what every patch of a pod is, what it does to the pod that is
  stored, and what becomes of it if others were first.
-/

namespace SparkLedger

open Object (amend)

/-- The document of a pod before and after one change of the pod: one member of the metadata is set,
or dropped, and the finalizers of others are as they were. -/
def Pod.Operation (j j' : Json) : Prop :=
  ∃ pod key pod', Pod.ofJson? j = some pod ∧ pod.Surgery key pod' ∧
    pod'.foreignFinalizers = pod.foreignFinalizers ∧ Pod.ofJson? j' = some pod' ∧
    j' = amend [(key, Assoc.find? key pod'.metadata.toJson.members)] j

namespace Tracker

open Dialogue (Transcript Exchange)

namespace Slot

variable {s s' : Slot} {place : String × String} {j p : Json} {old new : Pod} {key : String}

theorem Knows.operation (h : s.Knows place j old) (hsurgery : old.Surgery key new)
    (hp : Object.conditionalPatch? old new = some p) : Pod.Operation j (p.merge j) := by
  obtain ⟨ms, metadata, hmeta⟩ := h.metadata
  have hmerge := hsurgery.merge_eq_amend hmeta h.read hp
  refine ⟨old, key, new, h.read, hsurgery, hsurgery.foreignFinalizers_eq, ?_, hmerge⟩
  rw [hmerge]
  exact hsurgery.ofJson?_amend hmeta h.read

end Slot

/-! ## Pods that others have written -/

/-- The pod of a reconcile was written or removed after the reconcile has seen it. -/
def Yard.Outdated (S : Setup) (i : Nat) (y : Yard) : Prop :=
  ∃ j pod, y.seen i = some j ∧ (y.pods (S.pods i)).Knows (S.pods i) j pod ∧
    (y.pods (S.pods i)).stored ≠ some j

variable {S : Setup} {y y' : Yard} {i : Nat} {writer : Option Nat}

namespace Yard

/-- Others that write a pod outdate it. -/
theorem Sound.outdated (h : y.Sound S) (hseen : (y.seen i).isSome) (hwriter : writer ≠ some i)
    (hstep : S.YardStep y writer y') (hchanged : y'.pods (S.pods i) ≠ y.pods (S.pods i)) :
    y'.Outdated S i := by
  obtain ⟨j, hj⟩ := Option.isSome_iff_exists.1 hseen
  obtain ⟨pod, -, hknows⟩ := h.knows hj
  have hrenews := (h.renews_step hstep (S.pods i)).resolve_left hchanged
  exact ⟨j, pod, (seen_step hstep hwriter).trans hj, hknows.renew hrenews,
    hknows.renewed_ne hrenews⟩

namespace Outdated

variable {q : Question} {place : String × String}

/-- A patch of an outdated pod is made from the document that is not stored any more. -/
theorem asks_cases (h : y.Outdated S i) (hsound : y.Sound S)
    (hasks : (S.work i).Asks (y.world.said i) q) (hplace : q.pod? = some place) :
    place = S.pods i ∧ ∃ j old new, Pod.Change old new ∧ IsPatchOf old new q ∧
      (y.pods place).Knows place j old ∧ (y.pods place).stored ≠ some j := by
  obtain ⟨j, pod, hseen, -, hstored⟩ := h
  obtain ⟨pod', hlast, -⟩ := hsound.knows hseen
  obtain ⟨rfl, ⟨hsaid, -⟩ | ⟨j', old, new, hedit, hpatch, hseen', hknows⟩⟩ :=
    hsound.asks_cases hasks hplace
  · rw [hsaid] at hlast
    cases hlast
  · cases hseen.symm.trans hseen'
    exact ⟨rfl, j, old, new, hedit.change, hpatch, hknows, hstored⟩

/-- Nothing that is asked about an outdated pod has an effect or succeeds. -/
theorem handles (h : y.Outdated S i) (hsound : y.Sound S)
    (hasks : (S.work i).Asks (y.world.said i) q) (hplace : q.pod? = some place) {a : q.Answer}
    {slot : Slot} (hhandles : (y.pods place).Handles q a slot) :
    slot = y.pods place ∧ ∃ error, a = q.failed error := by
  obtain ⟨rfl, j, old, new, hchange, hpatch, hknows, hstored⟩ := h.asks_cases hsound hasks hplace
  rcases hknows.handles_cases hchange hpatch hhandles with
    ⟨herror, rfl | ⟨_, _, -, hsame, -⟩⟩ | ⟨_, ⟨_, -, hsame, -⟩, -⟩
  · exact ⟨rfl, herror⟩
  · exact absurd hsame hstored
  · exact absurd hsame hstored

theorem pods_step (h : y.Outdated S i) (hsound : y.Sound S) (hstep : S.YardStep y (some i) y') :
    y'.pods = y.pods ∧ y'.seen = y.seen := by
  cases hstep with
  | aside => exact ⟨rfl, rfl⟩
  | asked hasks hplace hhandles =>
    obtain ⟨rfl, error, rfl⟩ := h.handles hsound hasks hplace hhandles
    exact ⟨Function.update_eq_self .., seen_tell_of_none (podOf?_failed _ error)⟩

theorem step (h : y.Outdated S i) (hsound : y.Sound S) (hstep : S.YardStep y writer y') :
    y'.Outdated S i := by
  have hseen : y'.seen i = y.seen i := by
    by_cases hwriter : writer = some i
    · subst hwriter
      rw [(h.pods_step hsound hstep).2]
    · exact seen_step hstep hwriter
  obtain ⟨j, pod, hj, hknows, hstored⟩ := h
  rcases hsound.renews_step hstep (S.pods i) with hsame | hrenews
  · exact ⟨j, pod, hseen.trans hj, hsame ▸ hknows, hsame ▸ hstored⟩
  · exact ⟨j, pod, hseen.trans hj, hknows.renew hrenews, hknows.renewed_ne hrenews⟩

/-- A pod that is outdated for a reconcile stays so. -/
theorem run (h : y.Outdated S i) (hsound : y.Sound S) (hrun : S.YardRun y y') :
    y'.Outdated S i ∧ y'.Sound S := by
  induction hrun with
  | refl => exact ⟨h, hsound⟩
  | tail _ hstep ih =>
    obtain ⟨_, hstep⟩ := hstep
    exact ⟨ih.1.step ih.2 hstep, ih.2.step hstep⟩

/-- Where a pod is stored, a patch of an outdated one is a conflict. -/
theorem serves (h : y.Outdated S i) (hsound : y.Sound S)
    (hasks : (S.work i).Asks (y.world.said i) q) (hplace : q.pod? = some place) {a : q.Answer}
    {slot : Slot} (hserves : (y.pods place).Serves q a slot)
    (hstored : (y.pods place).stored.isSome) :
    ∃ message, a = q.failed (.api 409 "Conflict" message) := by
  obtain ⟨rfl, j, old, new, hchange, hpatch, hknows, hne⟩ := h.asks_cases hsound hasks hplace
  cases hserves with
  | read => exact hpatch.elim
  | patched hcurrent hversion =>
    have hnamed := Object.metadataText?_conditionalPatch? hpatch.2 hchange.version_eq
    rw [hknows.current _ hcurrent (hversion.symm.trans hnamed)] at hcurrent
    exact absurd hcurrent hne
  | @outdated ns name message => exact ⟨message, rfl⟩
  | absent hnone =>
    rw [hnone] at hstored
    cases hstored

end Outdated

end Yard

/-- Whatever becomes of a patch that a reconcile asks for, it does not change the pod, and the
reconcile fails. If the patch is served where a pod is stored, it fails with a conflict. -/
def Yard.Refuses (S : Setup) (i : Nat) (y : Yard) : Prop :=
  ∀ ns name p, (S.work i).Asks (y.world.said i) (.patchPod ns name p) →
    ∀ (a : Except Kube.Error Pod) slot,
      (y.pods (ns, name)).Handles (.patchPod ns name p) a slot →
        slot = y.pods (ns, name) ∧ ∃ failure : Error,
          (S.work i).Ends (y.world.said i ++ [⟨.patchPod ns name p, a⟩]) (.error failure) ∧
          ((y.pods (ns, name)).Serves (.patchPod ns name p) a slot →
            (y.pods (ns, name)).stored.isSome →
              (∃ message, a = .error (.api 409 "Conflict" message)) ∧ failure.isConflict = true)

theorem Yard.Outdated.refuses (h : y.Outdated S i) (hsound : y.Sound S) : y.Refuses S i := by
  intro ns name p hasks a slot hhandles
  obtain ⟨hslot, error, rfl⟩ := h.handles hsound hasks rfl hhandles
  obtain ⟨cause, hturn, hfails⟩ := obeys_reconcile.asks _ _ rfl hasks
  refine ⟨hslot, cause (.ofKube error), hfails error, fun hserves hstored => ?_⟩
  obtain ⟨message, hmessage⟩ := h.serves hsound hasks rfl hserves hstored
  cases hmessage
  exact ⟨⟨message, rfl⟩, hturn.isConflict_eq _⟩

/-! ## Runs -/

variable {application : Option Application} {pods : String × String → Option Json}

/-- Every patch of a pod, merged into the document that it was made from, changes the finalizers or
the owners of the pod and nothing else, and so it does to the pod that is stored. Once others have
written the pod, a reconcile that has seen it before does not change it any more: its patches are
refused, and it fails. -/
theorem pods_are_edited_surgically (hpods : Setup.Stocked pods)
    (hrun : S.YardRun (Setup.yard application pods) y) (i : Nat) :
    (∀ ns name p, (S.work i).Asks (y.world.said i) (.patchPod ns name p) →
      (ns, name) = S.pods i ∧ ∃ j, y.seen i = some j ∧ Pod.Operation j (p.merge j)) ∧
    (∀ y', S.YardStep y (some i) y' → y'.pods = y.pods ∨
      ∃ j j' version, (y.pods (S.pods i)).stored = some j ∧ Pod.Operation j j' ∧
        version ∉ (y.pods (S.pods i)).given ∧
        y'.pods = Function.update y.pods (S.pods i) ((y.pods (S.pods i)).put version j')) ∧
    ∀ writer y₁ y₂, (y.seen i).isSome → writer ≠ some i → S.YardStep y writer y₁ →
      y₁.pods (S.pods i) ≠ y.pods (S.pods i) → S.YardRun y₁ y₂ →
        (∀ y₃, S.YardStep y₂ (some i) y₃ → y₃.pods = y₂.pods) ∧ y₂.Refuses S i := by
  have hsound : y.Sound S := sound_run hpods hrun
  refine ⟨fun ns name p hasks => ?_, fun y' hstep => ?_, ?_⟩
  · obtain ⟨hplace, ⟨-, hq⟩ | ⟨j, old, new, hedit, hpatch, hseen, hknows⟩⟩ :=
      hsound.asks_cases hasks rfl
    · cases hq
    · obtain ⟨key, hsurgery⟩ := hedit.surgery
      exact ⟨hplace, j, hseen, hknows.operation hsurgery hpatch.2⟩
  · rcases hsound.pods_step hstep with
      hsame | ⟨j, old, new, version, slot, hedit, -, hknows, ⟨p, hp, hstored, hfresh, rfl⟩, hpods⟩
    · exact .inl hsame
    · obtain ⟨key, hsurgery⟩ := hedit.surgery
      exact .inr ⟨j, _, version, hstored, hknows.operation hsurgery hp, hfresh, hpods⟩
  · intro writer y₁ y₂ hseen hwriter hstep hchanged hrun'
    obtain ⟨houtdated, hsound'⟩ :=
      (hsound.outdated hseen hwriter hstep hchanged).run (hsound.step hstep) hrun'
    exact ⟨fun y₃ hstep' => (houtdated.pods_step hsound' hstep').1, houtdated.refuses hsound'⟩

open Setup (pair pairPod yard)

/-- A driver that nobody tracks yet, as it is stored with other finalizers and other members. -/
def strangeDriver (finalizers : List String) (version : String) : Json :=
  .obj [("metadata", .obj [("finalizers", .arr (finalizers.map .str)),
      ("labels", .obj [(Pod.applicationLabel, .str "app"), (Pod.roleLabel, .str "driver")]),
      ("name", .str "driver"), ("namespace", .str "spark"), ("resourceVersion", .str version),
      ("uid", .str "driver-uid")]),
    ("spec", .obj [("nodeName", .str "node")])]

/-- Somebody else adds a finalizer after the pod was read. -/
theorem pods_are_edited_surgically_outdated :
    let j := strangeDriver ["example.com/first"] "1"
    let pods place := if place = ("spark", "driver") then some j else none
    ∃ y y' p, pair.YardRun (yard none pods) y ∧ pair.YardStep y none y' ∧ y.seen 0 = some j ∧
      (y'.pods ("spark", "driver")).stored =
        some (strangeDriver ["example.com/first", "example.com/second"] "2") ∧
      (pair.work 0).Asks (y'.world.said 0) (.patchPod "spark" "driver" p) ∧
      Pod.Operation j (p.merge j) ∧ y'.Refuses pair 0 := by
  intro j pods
  let pod : Pod := { pairPod "driver" with
    metadata.finalizers := some ["example.com/first"]
    metadata.resourceVersion := some "1" }
  let j' := strangeDriver ["example.com/first", "example.com/second"] "2"
  have hread : Pod.ofJson? j = some pod := rfl
  have hpods : Setup.Stocked pods := by
    intro place j₁ hj₁
    dsimp only [pods] at hj₁
    split at hj₁
    · rename_i hplace
      cases hj₁
      refine ⟨Json.isValue_of_normal? (j := j) rfl, fun pod' hpod' => ?_⟩
      cases hread.symm.trans hpod'
      exact congrArg some hplace.symm
    · cases hj₁
  let p := (Object.conditionalPatch? pod pod.tracked).get rfl
  -- The reconcile reads the pod, and then somebody else writes it.
  let y := (yard none pods).tell 0 ⟨.getPod "spark" "driver",
    (.ok (some pod) : Except Kube.Error (Option Pod))⟩ ("spark", "driver") ⟨some j, ["1"]⟩
  have hreads : pair.YardStep (yard none pods) (some 0) y :=
    .asked (.inl ⟨rfl, rfl⟩) rfl (.inl (.read "spark" "driver"))
  have hchanges : (y.pods ("spark", "driver")).Changes ("spark", "driver") ⟨some j', ["2", "1"]⟩ :=
    .put (Json.isValue_of_normal? (j := j') rfl) (fun pod' hpod' => by cases hpod'; rfl) rfl
      (by decide)
  have hwrites : pair.YardStep y none _ := .changed hchanges
  have hrun : pair.YardRun (yard none pods) y := .single ⟨_, hreads⟩
  have hasks : (pair.work 0).Asks (y.world.said 0) (.patchPod "spark" "driver" p) :=
    .inr ⟨_, _, rfl, .inl ⟨rfl, rfl⟩⟩
  obtain ⟨hsent, -, hothers⟩ := pods_are_edited_surgically hpods hrun 0
  obtain ⟨-, j₁, hseen, hoperation⟩ := hsent "spark" "driver" p hasks
  have hj : y.seen 0 = some j := rfl
  cases hj.symm.trans hseen
  refine ⟨y, _, p, hrun, hwrites, hj, rfl, hasks, hoperation, ?_⟩
  refine (hothers none _ _ rfl nofun hwrites (fun hsame => ?_) .refl).2
  have hgiven : ["2", "1"] = ["1"] := congrArg Slot.given hsame
  exact absurd hgiven (by decide)

end Tracker

end SparkLedger

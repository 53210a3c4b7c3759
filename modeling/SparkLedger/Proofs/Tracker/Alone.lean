import SparkLedger.Proofs.Tracker.Discipline
import SparkLedger.Proofs.Tracker.Roster
import SparkLedger.Proofs.Tracker.Yard

/-!
# Pods that nobody else writes

While nobody else writes its pod, a reconcile knows what is stored: the pod that it has seen last is
there, unless a request has failed and the reconcile with it.

* `Yard.Chained`: the answer to a change of a pod is the changed pod, under a new version.
* `Setup.AloneRun`: steps of a reconcile and of others that leave its pod as it is.
* `Yard.Alone`: what is stored in such a run, by what the reconcile has seen. `alone_run`: it is so
  at any time.
-/

namespace SparkLedger.Tracker

open Dialogue (Transcript Exchange)

variable {S : Setup} {y y' : Yard} {i : Nat} {t t' : Transcript Tracking} {old new pod : Pod}

/-! ## Answers to changes -/

namespace Yard

/-- The answer to a change of a pod is the changed pod, under some version. -/
def Chained (y : Yard) : Prop :=
  ∀ i t old new pod e, lastPod? t = some old → Pod.Change old new → IsPatchOf old new e.question →
    podOf? e = some pod → t ++ [e] <+: y.world.said i → ∃ version, pod = new.under version

namespace Chained

/-- A change of a pod that succeeds gives the changed pod, even if there was nothing to change. -/
theorem eq_under (h : y.Chained) (hlast : lastPod? t = some old) (hchange : Pod.Change old new)
    (hpatch : (patchPod old new).Ends t' (.ok pod)) (hsaid : t ++ t' <+: y.world.said i) :
    ∃ version, pod = new.under version := by
  obtain ⟨ns, name, hplace, ⟨hp, rfl, rfl⟩ | ⟨p, hp, rfl⟩⟩ := ends_patchPod_ok.1 hpatch
  · refine ⟨pod.metadata.resourceVersion, ?_⟩
    rw [← Object.eq_of_conditionalPatch?_eq_none hp]
    rfl
  · exact h i t old new pod ⟨.patchPod ns name p, _⟩ hlast hchange ⟨hplace, hp⟩ rfl hsaid

theorem of_said (h : y.Chained) (hsaid : y'.world.said = y.world.said) : y'.Chained := by
  intro i t old new pod e hlast hchange hpatch hpod hprefix
  exact h i t old new pod e hlast hchange hpatch hpod (hsaid ▸ hprefix)

/-- One more exchange of a reconcile. -/
private theorem tell (h : y.Chained) {k : Nat} {e' : Exchange Tracking}
    (hsaid : y'.world.said = (y.world.tell k e').said)
    (hanswer : ∀ old new pod, lastPod? (y.world.said k) = some old → Pod.Change old new →
      IsPatchOf old new e'.question → podOf? e' = some pod → ∃ version, pod = new.under version) :
    y'.Chained := by
  intro i t old new pod e hlast hchange hpatch hpod hprefix
  rw [hsaid] at hprefix
  rcases World.Coherent.prefix_said_tell.1 hprefix with hbefore | ⟨rfl, hnow⟩
  · exact h i t old new pod e hlast hchange hpatch hpod hbefore
  · obtain ⟨rfl, rfl⟩ := List.append_singleton_inj.1 hnow
    exact hanswer old new pod hlast hchange hpatch hpod

theorem step {writer : Option Nat} (h : y.Chained) (hsound : y.Sound S)
    (hstep : S.YardStep y writer y') : y'.Chained := by
  cases hstep with
  | aside hstep hsaid hnone =>
    refine h.tell hsaid fun old new pod _ _ _ hpod => ?_
    cases (podOf?_of_pod?_eq_none hnone).symm.trans hpod
  | @asked i q a place slot hasks hplace hhandles =>
    refine h.tell rfl fun old new pod hlast hchange (hpatch : IsPatchOf old new q) hpod => ?_
    obtain ⟨rfl, -⟩ := hsound.asks_cases hasks hplace
    obtain ⟨j, -, hknows⟩ := hsound.exists_knows hlast
    rcases hknows.handles_cases hchange hpatch hhandles with
      ⟨⟨error, rfl⟩, -⟩ | ⟨version, -, hanswer⟩
    · cases (podOf?_failed _ error).symm.trans hpod
    · exact ⟨some version, Option.some.inj (hpod.symm.trans hanswer)⟩
  | changed => exact h.of_said rfl

end Chained

/-- The answers to changes are the changed pods, at any time. -/
theorem chained_run {application : Option Application} {pods : String × String → Option Json}
    (hpods : Setup.Stocked pods) (hrun : S.YardRun (Setup.yard application pods) y) :
    y.Chained := by
  induction hrun with
  | refl =>
    intro i t old new pod e _ _ _ _ hprefix
    have hlength := hprefix.length_le
    simp [Setup.yard, Setup.start] at hlength
  | tail hbefore hstep ih =>
    obtain ⟨_, hstep⟩ := hstep
    exact ih.step (sound_run hpods hbefore) hstep

end Yard

/-! ## Runs in which nobody else writes a pod -/

/-- Steps of a reconcile, and steps of anybody that leave its pod as it is. -/
def Setup.AloneRun (S : Setup) (i : Nat) : Yard → Yard → Prop :=
  Relation.ReflTransGen fun y y' => ∃ writer, S.YardStep y writer y' ∧
    (writer = some i ∨ y'.pods (S.pods i) = y.pods (S.pods i))

theorem Setup.AloneRun.run (h : S.AloneRun i y y') : S.YardRun y y' := by
  induction h with
  | refl => exact .refl
  | tail _ hstep ih =>
    obtain ⟨writer, hstep, -⟩ := hstep
    exact ih.tail ⟨writer, hstep⟩

/-- Whose exchange a step is, that reconcile has asked. -/
theorem Setup.Step.asks {w w' : World} {e : Exchange Tracking} (hstep : S.Step w w')
    (hsaid : w'.said = (w.tell i e).said) : (S.work i).Asks (w.said i) e.question := by
  obtain ⟨k, e', hasks, hsaid'⟩ : ∃ k e', (S.work k).Asks (w.said k) e'.question ∧
      w'.said = (w.tell k e').said := by
    cases hstep with
    | heard hasks => exact ⟨_, _, hasks, rfl⟩
    | fetched hasks => exact ⟨_, _, hasks, rfl⟩
    | wrote hasks => exact ⟨_, _, hasks, rfl⟩
  have hi := congrFun (hsaid'.symm.trans hsaid) i
  by_cases hk : i = k
  · subst hk
    rw [World.said_tell_self, World.said_tell_self, List.append_right_inj] at hi
    cases hi
    exact hasks
  · rw [World.said_tell_of_ne hk, World.said_tell_self] at hi
    simp at hi

namespace Yard

/-- What is stored as the pod of a reconcile that began with this slot and has gone on alone. -/
structure Alone (S : Setup) (i : Nat) (slot : Slot) (y : Yard) : Prop where
  unread : y.world.said i = [] → y.pods (S.pods i) = slot
  /-- The pod that was read first was there in the beginning. -/
  first : ∀ e t pod, y.world.said i = e :: t → podOf? e = some pod →
    ∃ j, slot.stored = some j ∧ Pod.ofJson? j = some pod
  /-- What was seen last is stored, unless the reconcile has failed. -/
  last : ∀ j, y.seen i = some j → (y.pods (S.pods i)).stored = some j ∨
    ∃ failure, (S.work i).Ends (y.world.said i) (.error failure)

namespace Alone

variable {slot : Slot}

/-- A reconcile that goes on has not failed. -/
theorem stored_of_asks (h : y.Alone S i slot) {q : Question}
    (hasks : (S.work i).Asks (y.world.said i) q) {j : Json} (hseen : y.seen i = some j) :
    (y.pods (S.pods i)).stored = some j := by
  rw [← List.append_nil (y.world.said i)] at hasks
  exact (h.last j hseen).resolve_right fun ⟨_, hends⟩ => Dialogue.not_asks_of_ends hends hasks

/-- After an exchange of the reconcile itself. -/
private theorem tell (h : y.Alone S i slot) {e : Exchange Tracking}
    (hsaid : y'.world.said i = y.world.said i ++ [e])
    (hfirst : y.world.said i = [] → ∀ pod, podOf? e = some pod →
      ∃ j, slot.stored = some j ∧ Pod.ofJson? j = some pod)
    (hlast : ∀ j, y'.seen i = some j → (y'.pods (S.pods i)).stored = some j ∨
      ∃ failure, (S.work i).Ends (y'.world.said i) (.error failure)) : y'.Alone S i slot where
  unread hnone := by
    rw [hsaid] at hnone
    simp at hnone
  first e' t pod hread hpod := by
    rw [hsaid] at hread
    cases hbefore : y.world.said i with
    | nil =>
      rw [hbefore] at hread
      cases hread
      exact hfirst hbefore pod hpod
    | cons e'' t' =>
      rw [hbefore] at hread
      cases hread
      exact h.first _ _ pod hbefore hpod
  last := hlast

section

variable {q : Question} {a : q.Answer} {slot' : Slot}

/-- The reconcile was answered a pod: it is the one that is stored. -/
private theorem answered (h : y.Alone S i slot) (hsound : y.Sound S)
    (hasks : (S.work i).Asks (y.world.said i) q) (hplace : q.pod? = some (S.pods i))
    (hhandles : (y.pods (S.pods i)).Handles q a slot') (hpod : podOf? ⟨q, a⟩ = some pod) :
    (y.tell i ⟨q, a⟩ (S.pods i) slot').Alone S i slot := by
  refine h.tell (World.said_tell_self ..) (fun hnone pod' hpod' => ?_) fun j hseen => .inl ?_
  · obtain ⟨-, ⟨-, rfl⟩ | ⟨j, old, new, hedit, -⟩⟩ := hsound.asks_cases hasks hplace
    · rw [eq_ok_of_podOf?_getPod hpod'] at hhandles
      rcases hhandles.read_cases.2 with hsought | ⟨_, herror⟩
      · rw [h.unread hnone] at hsought
        exact Server.sought_eq_ok_some_iff.1 hsought.symm
      · cases herror
    · have hlast := hedit.lastPod?_eq
      rw [hnone] at hlast
      cases hlast
  · rw [seen_tell_of_some hpod, Function.update_self] at hseen
    change (Function.update y.pods _ slot' _).stored = some j
    rw [Function.update_self]
    exact hseen

/-- The reconcile was answered no pod: what is stored is as it was, or a request has failed. -/
private theorem unanswered (h : y.Alone S i slot) (hsound : y.Sound S)
    (hasks : (S.work i).Asks (y.world.said i) q) (hplace : q.pod? = some (S.pods i))
    (hhandles : (y.pods (S.pods i)).Handles q a slot') (hnone : podOf? ⟨q, a⟩ = none) :
    (y.tell i ⟨q, a⟩ (S.pods i) slot').Alone S i slot := by
  have hsaid : (y.tell i ⟨q, a⟩ (S.pods i) slot').world.said i = y.world.said i ++ [⟨q, a⟩] :=
    World.said_tell_self ..
  refine h.tell hsaid (fun _ pod hpod => ?_) fun j hseen => ?_
  · cases hnone.symm.trans hpod
  rw [seen_tell_of_none hnone] at hseen
  have hkept (hslot : slot' = y.pods (S.pods i)) :
      (Function.update y.pods (S.pods i) slot' (S.pods i)).stored = some j := by
    rw [hslot, Function.update_eq_self]
    exact h.stored_of_asks hasks hseen
  obtain ⟨-, ⟨-, rfl⟩ | ⟨j', old, new, hedit, hpatch, -, hknows⟩⟩ :=
    hsound.asks_cases hasks hplace
  · exact .inl (hkept hhandles.read_cases.1)
  rcases hknows.handles_cases hedit.change hpatch hhandles with
    ⟨⟨error, rfl⟩, hslot | -⟩ | ⟨version, -, hanswer⟩
  · exact .inl (hkept hslot)
  · -- The patch was applied, but the reconcile has not heard of it, and fails.
    obtain ⟨cause, -, hfails⟩ :=
      obeys_reconcile.asks _ q (Question.isRequest_of_isWrite hpatch.isWrite) hasks
    exact .inr ⟨_, hsaid ▸ hfails error⟩
  · cases hnone.symm.trans hanswer

end

/-- A step of the reconcile itself. -/
private theorem own_step (h : y.Alone S i slot) (hsound : y.Sound S)
    (hstep : S.YardStep y (some i) y') : y'.Alone S i slot := by
  cases hstep with
  | aside hstep hsaid hnone =>
    have hasks := hstep.asks hsaid
    refine h.tell ((congrFun hsaid i).trans (World.said_tell_self ..)) (fun _ pod hpod => ?_)
      fun j hseen => .inl (h.stored_of_asks hasks hseen)
    cases (podOf?_of_pod?_eq_none hnone).symm.trans hpod
  | @asked _ q a place slot' hasks hplace hhandles =>
    obtain ⟨rfl, -⟩ := hsound.asks_cases hasks hplace
    cases hpod : podOf? ⟨q, a⟩ with
    | some pod => exact h.answered hsound hasks hplace hhandles hpod
    | none => exact h.unanswered hsound hasks hplace hhandles hpod

theorem step {writer : Option Nat} (h : y.Alone S i slot) (hsound : y.Sound S)
    (hstep : S.YardStep y writer y')
    (halone : writer = some i ∨ y'.pods (S.pods i) = y.pods (S.pods i)) :
    y'.Alone S i slot := by
  by_cases hwriter : writer = some i
  · subst hwriter
    exact h.own_step hsound hstep
  · have hsaid := said_step hstep hwriter
    have hpods := halone.resolve_left hwriter
    refine ⟨fun hnone => hpods.trans (h.unread (hsaid ▸ hnone)), fun e t pod hread => ?_,
      fun j hseen => ?_⟩
    · exact h.first e t pod (hsaid ▸ hread)
    · rw [hsaid, hpods]
      exact h.last j (seen_step hstep hwriter ▸ hseen)

end Alone

/-- What a reconcile on its own knows of its pod, at any time. -/
theorem Sound.alone_run (hsound : y.Sound S) (hchained : y.Chained) (hsaid : y.world.said i = [])
    (hrun : S.AloneRun i y y') :
    y'.Alone S i (y.pods (S.pods i)) ∧ y'.Sound S ∧ y'.Chained := by
  induction hrun with
  | refl =>
    refine ⟨⟨fun _ => rfl, fun e t pod hread => ?_, fun j hseen => ?_⟩, hsound, hchained⟩
    · rw [hsaid] at hread
      cases hread
    · obtain ⟨pod, hlast, -⟩ := hsound.knows hseen
      rw [hsaid] at hlast
      cases hlast
  | tail _ hstep ih =>
    obtain ⟨writer, hstep, halone⟩ := hstep
    exact ⟨ih.1.step ih.2.1 hstep halone, ih.2.1.step hstep, ih.2.2.step ih.2.1 hstep⟩

end Yard

end SparkLedger.Tracker

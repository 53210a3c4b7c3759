import SparkLedger.Proofs.Stage.Latest
import SparkLedger.Stage.Update

/-!
# The order of a window

Polls list their stages in no particular order, and counts do not depend on it: not what is added,
nor the ledger, nor the lines, nor which sum on the way overflows. Of the attempts of a stage the
latest is picked wherever it stands, and the attempts picked are counted by ascending id. Only
entries of one attempt that differ would be told apart by their order.

* `Stage.bare`: a stage as far as counts look at it. `Ledger.fold_map_bare` and the like: they do
  not look at more.
* `Window.map_bare_latest_of_perm`: windows with the same entries pick the same attempts.
* `order_does_not_matter`: what a window comes to in another order.
-/

namespace SparkLedger

/-! ## What counts look at -/

namespace Stage

/-- A stage as far as counts look at it: without its name and the number of its tasks. -/
def bare (s : Stage) : Stage :=
  { s with
    name := ""
    taskCount := 0 }

theorem bare_eq_of_agree {s t : Stage} (hid : s.id = t.id) (hattempt : s.attempt = t.attempt)
    (hstatus : s.status = t.status) (hmetrics : s.metrics = t.metrics) : s.bare = t.bare := by
  obtain ⟨ho, hi, hc⟩ := Metrics.mk.inj hmetrics
  rw [bare, bare, hid, hattempt, hstatus, ho, hi, hc]

/-- What does not look at more of stages is the same where they are the same so far. -/
theorem eq_of_map_bare {β : Type} {f : List Stage → β} (hf : ∀ xs, f (xs.map bare) = f xs)
    {xs ys : List Stage} (h : xs.map bare = ys.map bare) : f xs = f ys := by
  rw [← hf xs, h, hf ys]

end Stage

open Stage (bare Metrics)

namespace Ledger

theorem fold_map_bare (l : Ledger) (xs : List Stage) : l.fold (xs.map bare) = l.fold xs := by
  rw [fold, List.filter_map, List.filter_map, List.foldlM_map]
  simp only [List.foldlM_map]
  rfl

theorem gap?_map_bare (l : Ledger) (xs : List Stage) : l.gap? (xs.map bare) = l.gap? xs := by
  simp only [gap?, List.any_map]
  rfl

theorem gapLine_map_bare (xs : List Stage) (gap : Signed64) :
    gapLine (xs.map bare) gap = gapLine xs gap := by
  have hshown (s : Option Stage) : shownId (s.map bare) = shownId s := by cases s <;> rfl
  rw [gapLine, gapLine, List.head?_map, List.getLast?_map, hshown, hshown]

theorem foldLine_map_bare (l : Ledger) (xs : List Stage) :
    l.foldLine (xs.map bare) = l.foldLine xs := by
  rw [foldLine, foldLine, List.countP_map, List.countP_map]
  rfl

end Ledger

/-! ## The attempts that are picked -/

namespace Window

variable {w w' : Window}

/-- Entries of one attempt of a stage agree on its status and its metrics. -/
def Consistent (w : Window) : Prop :=
  ∀ s ∈ w, ∀ t ∈ w, s.id = t.id → s.attempt = t.attempt →
    s.status = t.status ∧ s.metrics = t.metrics

theorem Consistent.of_perm (hw : w.Consistent) (hperm : w.Perm w') : w'.Consistent :=
  fun s hs t ht => hw s (hperm.mem_iff.2 hs) t (hperm.mem_iff.2 ht)

private theorem bare_mem_of_perm (hperm : w.Perm w') (hw : w.Consistent) {s : Stage}
    (hs : s ∈ w.latest) : s.bare ∈ w'.latest.map bare := by
  have hmem := mem_of_mem_latest hs
  obtain ⟨t, ht, hid⟩ : ∃ t ∈ w'.latest, t.id = s.id :=
    exists_mem_latest_of_mem_ids (mem_ids_iff.2 ⟨s, hperm.mem_iff.1 hmem, rfl⟩)
  have hmem' := hperm.mem_iff.2 (mem_of_mem_latest ht)
  have hattempt : t.attempt = s.attempt :=
    Ranged.ext (le_antisymm (attempt_le_of_mem_latest hs hmem' hid)
      (attempt_le_of_mem_latest ht (hperm.mem_iff.1 hmem) hid.symm))
  obtain ⟨hstatus, hmetrics⟩ := hw t hmem' s hmem hid hattempt
  exact List.mem_map.2 ⟨t, ht, Stage.bare_eq_of_agree hid hattempt hstatus hmetrics⟩

/-- Windows with the same entries pick the same attempts, as far as counts look at them. -/
theorem map_bare_latest_of_perm (hperm : w.Perm w') (hw : w.Consistent) :
    w.latest.map bare = w'.latest.map bare := by
  have hsorted (v : Window) : (v.latest.map bare).Pairwise fun s t => s.id.val < t.id.val :=
    List.pairwise_map.2 (pairwise_latest v)
  have : Std.Irrefl fun s t : Stage => s.id.val < t.id.val := ⟨fun s => lt_irrefl s.id.val⟩
  have hmem (s : Stage) : s ∈ w.latest.map bare ↔ s ∈ w'.latest.map bare := by
    constructor <;> intro hs
    · obtain ⟨t, ht, rfl⟩ := List.mem_map.1 hs
      exact bare_mem_of_perm hperm hw ht
    · obtain ⟨t, ht, rfl⟩ := List.mem_map.1 hs
      exact bare_mem_of_perm hperm.symm (hw.of_perm hperm) ht
  refine List.Perm.eq_of_pairwise (fun s t _ _ hst hts => absurd hst hts.not_gt) (hsorted w)
    (hsorted w') ?_
  exact (List.perm_ext_iff_of_nodup (hsorted w).nodup (hsorted w').nodup).2 hmem

end Window

/-! ## What a window comes to -/

/-- A window comes to the same in any order, if its entries of one attempt agree: the sum, the
ledger of a window seen first, the count into any ledger with the stage that was lost, the lines,
and the update. Where one overflows the other does so in the same way. -/
theorem order_does_not_matter {w w' : Window} (hperm : w.Perm w') (hw : w.Consistent) :
    w.total = w'.total ∧
    Ledger.ofWindow w = Ledger.ofWindow w' ∧
    (∀ l : Ledger, l.aggregate w = l.aggregate w' ∧ l.aggregateLines w = l.aggregateLines w') ∧
    ∀ recorded, Update.compute w recorded = Update.compute w' recorded ∧
      Update.lines w recorded = Update.lines w' recorded := by
  have hlatest := Window.map_bare_latest_of_perm hperm hw
  have htotal : w.total = w'.total :=
    Stage.eq_of_map_bare
      (f := fun xs => xs.foldlM (fun (t : Metrics) (s : Stage) => t.add s.metrics) 0)
      (fun xs => List.foldlM_map ..) hlatest
  have hfold (l : Ledger) : l.fold w.latest = l.fold w'.latest :=
    Stage.eq_of_map_bare l.fold_map_bare hlatest
  have hgap (l : Ledger) : l.gap? w.latest = l.gap? w'.latest :=
    Stage.eq_of_map_bare l.gap?_map_bare hlatest
  have hgapLine (gap : Signed64) : Ledger.gapLine w.latest gap = Ledger.gapLine w'.latest gap :=
    Stage.eq_of_map_bare (f := (Ledger.gapLine · gap)) (Ledger.gapLine_map_bare · gap) hlatest
  have hfoldLine (l : Ledger) : l.foldLine w.latest = l.foldLine w'.latest :=
    Stage.eq_of_map_bare l.foldLine_map_bare hlatest
  have hfirst : Ledger.ofWindow w = Ledger.ofWindow w' := by
    rw [Ledger.ofWindow, Ledger.ofWindow, hfold]
  have hcount (l : Ledger) : l.aggregate w = l.aggregate w' := by
    rw [Ledger.aggregate, Ledger.aggregate, hgap, hfold]
  have hlines (l : Ledger) : l.aggregateLines w = l.aggregateLines w' := by
    rw [Ledger.aggregateLines, Ledger.aggregateLines, hgap, hfoldLine, funext hgapLine]
  refine ⟨htotal, hfirst, fun l => ⟨hcount l, hlines l⟩, fun recorded => ?_⟩
  cases recorded with
  | none =>
    rw [Update.compute, Update.compute, Update.lines, Update.lines, Ledger.firstLines,
      Ledger.firstLines, htotal, hfirst, hfoldLine]
    exact ⟨rfl, rfl⟩
  | some l =>
    rw [Update.compute, Update.compute, hcount]
    exact ⟨rfl, hlines l⟩

/-- A poll of stages 1 and 2, in which stage 1 has been retried and its retry is listed twice,
under two names. Stage 0 is missing. -/
def jumbledPoll : Window :=
  let n (i : Fin 15) : Signed64 := ⟨i, by omega, by omega⟩
  let entry (name : String) (id attempt amount : Signed64) (status : Stage.Status) : Stage :=
    ⟨status, id, attempt, name, amount, amount, amount, amount⟩
  [entry "map" (n 2) 0 (n 7) .complete, entry "scan" (n 1) (n 1) (n 3) .active,
    entry "scan" (n 1) 0 (n 9) .failed, entry "rescan" (n 1) (n 1) (n 3) .active]

theorem order_does_not_matter_jumbledPoll :
    jumbledPoll.Perm jumbledPoll.reverse ∧ jumbledPoll.Consistent ∧
      jumbledPoll.latest ≠ Window.latest jumbledPoll.reverse ∧
      ∃ a, Ledger.empty.aggregate jumbledPoll = .ok a ∧
        Ledger.empty.aggregate jumbledPoll.reverse = .ok a ∧ a.gap = some 0 ∧
        a.delta.inputBytes.val = 10 := by
  have hperm : jumbledPoll.Perm jumbledPoll.reverse := (List.reverse_perm _).symm
  have hconsistent : jumbledPoll.Consistent := by
    unfold Window.Consistent
    decide +kernel
  obtain ⟨a, ha⟩ : ∃ a, Ledger.empty.aggregate jumbledPoll = .ok a := ⟨_, rfl⟩
  obtain ⟨-, -, hcount, -⟩ := order_does_not_matter hperm hconsistent
  refine ⟨hperm, hconsistent, by decide +kernel, a, ha, (hcount .empty).1 ▸ ha, ?_⟩
  cases ha
  decide +kernel

end SparkLedger

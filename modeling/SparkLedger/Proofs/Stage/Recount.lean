import SparkLedger.Proofs.Stage.Holes

/-!
# Counting a window twice

Once a window is counted, counting it again adds nothing and leaves the ledger as it is: its
finalized stages are settled, and its other stages are active with just their metrics. No stage is
missing from it either, as the watermark is past all that it lists as finalized. So totals do not
change if a poll is repeated, be it the first one or a later one.

* `Ledger.after_after`: the ledger after the same window twice.
* `Ledger.HasCounted`: a ledger to which a window is no news.
* `Update.compute_again`: the update by a window that is counted already.
* `Update.apply_zero`: an update by nothing.
* `recount_adds_nothing`: what a ledger or a first count makes of a window is no news to it.
-/

namespace SparkLedger

open Stage (Metrics)
open Application (Statistics)

namespace Ledger

variable {l : Ledger} {w : Window} {s : Stage}

/-- A finalized stage of a window is settled once the window is counted. -/
theorem settled_after (hs : s ∈ w.latest) (hfinal : s.isFinalized = true) :
    (l.after w.latest).settled s = true := by
  refine settled_iff.2 ⟨?_, ?_⟩
  · exact le_watermark_after_iff.2 (.inr ⟨s, hs, hfinal, le_rfl⟩)
  · refine Option.eq_none_iff_forall_ne_some.2 fun m hm => ?_
    obtain ⟨t, ht, hid, hactive, -⟩ := (find?_active_after (Window.nodup_map_id_latest w)).1 hm
    rw [Window.eq_of_mem_latest ht hs hid, hfinal] at hactive
    cases hactive

/-- Any other stage of a window is counted as it is. -/
theorem counted_after (hs : s ∈ w.latest) (hactive : s.isFinalized = false) :
    (l.after w.latest).counted s = s.metrics := by
  rw [counted_eq, (find?_active_after (Window.nodup_map_id_latest w)).2 ⟨s, hs, rfl, hactive, rfl⟩]
  rfl

theorem tally_after (hs : s ∈ w.latest) (delta : Metrics) :
    (l.after w.latest).tally delta s = .ok delta := by
  unfold tally
  split
  · rfl
  · rename_i hskip
    have hactive : s.isFinalized = false := by
      refine Bool.eq_false_iff.2 fun hfinal => hskip ?_
      rw [skips, hfinal, settled_after hs hfinal]
      rfl
    refine Checked.bind_eq_ok_iff.2 ⟨0, ?_, ?_⟩
    · rw [counted_after hs hactive, Metrics.sub_eq_ok_iff_amounts, Metrics.amounts_zero, sub_self]
    · rw [Metrics.add_eq_ok_iff_amounts, Metrics.amounts_zero, add_zero]

/-- The ledger after the same window twice is the one after it once. -/
theorem after_after (l : Ledger) (w : Window) :
    (l.after w.latest).after w.latest = l.after w.latest := by
  have hmark {xs : List Stage} (hxs : ∀ s ∈ xs, (l.after w.latest).settled s = true)
      (mark : Signed64) :
      xs.foldl (fun mark s => if (l.after w.latest).settled s then mark else later mark s.id) mark =
        mark := by
    induction xs with
    | nil => rfl
    | cons s xs ih =>
      rw [List.foldl_cons, if_pos (hxs s List.mem_cons_self)]
      exact ih fun t ht => hxs t (List.mem_cons_of_mem _ ht)
  refine Ledger.ext (hmark (fun s hs => ?_) _) rfl
  obtain ⟨hs, hfinal⟩ := List.mem_filter.1 hs
  exact settled_after hs hfinal

theorem fold_after (l : Ledger) (w : Window) :
    (l.after w.latest).fold w.latest = .ok ⟨0, l.after w.latest⟩ := by
  have htally {xs : List Stage} (hxs : ∀ s ∈ xs, s ∈ w.latest) :
      xs.foldlM (l.after w.latest).tally 0 = .ok 0 := by
    induction xs with
    | nil => rfl
    | cons s xs ih =>
      refine Checked.foldlM_cons_eq_ok_iff.2 ⟨0, tally_after (hxs s List.mem_cons_self) 0, ?_⟩
      exact ih fun t ht => hxs t (List.mem_cons_of_mem _ ht)
  have hordered : ∀ s ∈ ordered w.latest, s ∈ w.latest :=
    fun s => (List.filter_append_perm _ _).mem_iff.1
  rw [fold_eq, htally hordered, after_after]
  rfl

/-- There is room for one more id behind the watermark, unless the window was full of ids. -/
theorem watermark_after_lt (hl : l.watermark.val < 9223372036854775807)
    (hids : ∀ s ∈ w, s.id.val < 9223372036854775807) :
    (l.after w.latest).watermark.val < 9223372036854775807 := by
  rcases le_watermark_after_iff.1 (le_refl (l.after w.latest).watermark.val) with
    hle | ⟨s, hs, -, hle⟩
  · exact hle.trans_lt hl
  · exact hle.trans_lt (hids s (Window.mem_of_mem_latest hs))

/-- No stage is missing from a window that is counted. -/
theorem gap?_after (h : (l.after w.latest).watermark.val < 9223372036854775807) :
    (l.after w.latest).gap? w.latest = .ok none := by
  obtain ⟨gap, hgap⟩ := exists_gap_iff.2 h
  rw [hgap]
  cases hcase : gap with
  | none => rfl
  | some id =>
    obtain ⟨⟨s, hs, hfinal, hlt⟩, -⟩ := (isSome_gap_iff hgap).1 (hcase ▸ rfl)
    exact absurd (le_watermark_after_iff.2 (.inr ⟨s, hs, hfinal, le_rfl⟩)) hlt.not_ge

/-- The window is no news to the ledger: a count of it succeeds, adds nothing, leaves the ledger as
it is and misses no stage, and its lines have no error. -/
def HasCounted (l : Ledger) (w : Window) : Prop :=
  l.aggregate w = .ok ⟨⟨0, l⟩, none⟩ ∧ ∀ line ∈ l.aggregateLines w, line.level ≠ .error

theorem hasCounted_after (h : (l.after w.latest).watermark.val < 9223372036854775807) :
    (l.after w.latest).HasCounted w := by
  refine ⟨?_, fun line hline herror => ?_⟩
  · rw [aggregate, gap?_after h, fold_after]
    rfl
  · cases (exists_error_iff (gap?_after h)).1 ⟨line, hline, herror⟩

end Ledger

namespace Update

variable {w : Window} {recorded : Option Ledger} {u : Update}

theorem compute_of_hasCounted {l : Ledger} (h : l.HasCounted w) :
    compute w (some l) = .ok (.incremental 0 l) := by
  rw [compute, h.1]
  rfl

/-- A window that is counted adds nothing if it is counted again, and the ledger stays. -/
theorem compute_again (hids : ∀ s ∈ w, s.id.val < 9223372036854775807)
    (h : compute w recorded = .ok u) :
    compute w (some u.ledger) = .ok (.incremental 0 u.ledger) := by
  -- A window is only ever counted into a ledger with room behind its watermark.
  obtain ⟨l, hlt, hledger⟩ : ∃ l : Ledger,
      l.watermark.val < 9223372036854775807 ∧ u.ledger = l.after w.latest := by
    cases recorded with
    | none =>
      obtain ⟨totals, rfl, -⟩ := compute_none_eq_ok h
      exact ⟨.empty, by decide, rfl⟩
    | some l =>
      obtain ⟨delta, rfl, -⟩ := compute_some_eq_ok h
      obtain ⟨a, ha, -⟩ := Checked.bind_eq_ok_iff.1 h
      obtain ⟨gap, hgap, -⟩ := Checked.bind_eq_ok_iff.1 ha
      exact ⟨l, Ledger.exists_gap_iff.1 ⟨gap, hgap⟩, rfl⟩
  rw [hledger]
  exact compute_of_hasCounted (Ledger.hasCounted_after (Ledger.watermark_after_lt hlt hids))

/-- An update by nothing leaves the statistics as they are. -/
theorem apply_zero (s : Statistics) (l : Ledger) : apply s (.incremental 0 l) = .ok s := by
  refine Checked.bind_eq_ok_iff.2 ⟨s.totalInputBytes, ?_, Checked.bind_eq_ok_iff.2
    ⟨s.totalOutputBytes, ?_, Checked.bind_eq_ok_iff.2 ⟨s.totalCpuTime, ?_, rfl⟩⟩⟩ <;>
  · rw [Signed64.add_eq_ok_iff]
    exact (add_zero _).symm

end Update

/-- A window is no news to the ledger that it was counted into, whatever that ledger was before, nor
to the ledger of a first count, unless the watermark is the largest id there is. So an update by
the window of a first count leaves the statistics as they are. -/
theorem recount_adds_nothing (w : Window) :
    (∀ (l : Ledger) a, l.aggregate w = .ok a → a.ledger.watermark.val < 9223372036854775807 →
      a.ledger.HasCounted w) ∧
    (∀ l, Ledger.ofWindow w = .ok l → l.watermark.val < 9223372036854775807 → l.HasCounted w) ∧
    ∀ u, Update.compute w none = .ok u → u.ledger.watermark.val < 9223372036854775807 →
      Update.compute w (some u.ledger) = .ok (.incremental 0 u.ledger) ∧
      ∀ s : Statistics, Update.apply s (.incremental 0 u.ledger) = .ok s := by
  refine ⟨fun l a ha hlt => ?_, fun l hl hlt => ?_, fun u hu hlt => ⟨?_, fun s => ?_⟩⟩
  · rw [(Ledger.aggregate_eq_ok ha).1] at hlt ⊢
    exact Ledger.hasCounted_after hlt
  · obtain ⟨a, ha, h⟩ := Checked.bind_eq_ok_iff.1 hl
    cases h
    rw [(Ledger.fold_eq_ok ha).1] at hlt ⊢
    exact Ledger.hasCounted_after hlt
  · obtain ⟨totals, rfl, -⟩ := Update.compute_none_eq_ok hu
    exact Update.compute_of_hasCounted (Ledger.hasCounted_after hlt)
  · exact Update.apply_zero s u.ledger

/-- A ledger that a window has left with a stage below the watermark still active. -/
def laggingLedger : Ledger :=
  let n (i : Fin 14) : Signed64 := ⟨i, by omega, by omega⟩
  ⟨n 5, .ofList [(n 2, ⟨n 3, n 3, n 3⟩)]⟩

/-- A window with a retried stage, a stage that ended below the watermark of `laggingLedger`, one
that it has counted, one past it, and one with a negative id. -/
def motleyWindow : Window :=
  let n (i : Fin 14) : Signed64 := ⟨i, by omega, by omega⟩
  let entry (id attempt amount : Signed64) (status : Stage.Status) : Stage :=
    ⟨status, id, attempt, "", 0, amount, amount, amount⟩
  [entry (n 4) 0 (n 8) .failed, entry (n 4) (n 1) (n 3) .active, entry (n 2) 0 (n 7) .complete,
    entry (n 1) 0 (n 9) .complete, entry (n 8) 0 (n 2) .skipped,
    entry ⟨-3, by decide, by decide⟩ 0 (n 6) .pending]

theorem recount_adds_nothing_motleyWindow :
    ∃ a l u, laggingLedger.aggregate motleyWindow = .ok a ∧ a.gap.isSome = true ∧
      a.delta ≠ 0 ∧ a.ledger.HasCounted motleyWindow ∧
      Ledger.ofWindow motleyWindow = .ok l ∧ l.HasCounted motleyWindow ∧
      Update.compute motleyWindow none = .ok u ∧
      Update.compute motleyWindow (some u.ledger) = .ok (.incremental 0 u.ledger) := by
  obtain ⟨hcount, hfirst, hfull⟩ := recount_adds_nothing motleyWindow
  obtain ⟨a, ha⟩ : ∃ a, laggingLedger.aggregate motleyWindow = .ok a := ⟨_, rfl⟩
  obtain ⟨l, hl⟩ : ∃ l, Ledger.ofWindow motleyWindow = .ok l := ⟨_, rfl⟩
  obtain ⟨u, hu⟩ : ∃ u, Update.compute motleyWindow none = .ok u := ⟨_, rfl⟩
  refine ⟨a, l, u, ha, ?_, ?_, hcount _ a ha ?_, hl, hfirst l hl ?_, hu, (hfull u hu ?_).1⟩
  all_goals
    cases ha
    cases hl
    cases hu
    decide +kernel

end SparkLedger

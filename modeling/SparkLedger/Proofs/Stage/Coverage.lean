import SparkLedger.Proofs.Stage.Bounds

/-!
# Totals and what is still active

Deltas may be negative: a stage can shrink, and a new attempt takes the place of an old one. The
totals stay above what the ledger has of active stages all the same, since a window subtracts
each active entry at most once, and adds back what it lists as active.

* `Update.exactRun`: a run of windows in exact arithmetic; `Update.eq_exactRun` says that the
  checked run is the exact one wherever it succeeds.
* `Ledger.activeSum_after_le`: one window keeps the totals above the active stages.
* `Update.totals_cover_active`: so does every run.
-/

namespace SparkLedger

open Stage (Metrics Amounts)
open Application (Statistics)

namespace Ledger

variable {l : Ledger} {w : Window}

theorem active_nonneg_after (hw : ∀ s ∈ w, 0 ≤ s.metrics.amounts) {id : Signed64} {m : Metrics}
    (hm : (l.after w.latest).active.find? id = some m) : 0 ≤ m.amounts := by
  obtain ⟨s, hs, -, -, rfl⟩ := (find?_active_after (Window.nodup_map_id_latest w)).1 hm
  exact hw s (Window.mem_of_mem_latest hs)

theorem activeSum_nonneg (hactive : ∀ id m, l.active.find? id = some m → 0 ≤ m.amounts) :
    0 ≤ l.activeSum := by
  refine List.sum_nonneg fun x hx => ?_
  obtain ⟨m, hm, rfl⟩ := List.mem_map.1 hx
  obtain ⟨⟨id, m'⟩, he, rfl⟩ := List.mem_map.1 hm
  exact hactive id m' (SortedMap.mem_toList_iff.1 he)

/-- What a window has of active stages is no more than what it has of all. -/
theorem activeSum_after_le_sum (hw : ∀ s ∈ w, 0 ≤ s.metrics.amounts) (l : Ledger) :
    (l.after w.latest).activeSum ≤ (w.latest.map (·.metrics.amounts)).sum := by
  rw [activeSum_after]
  refine (List.filter_sublist.map _).sum_le_sum fun x hx => ?_
  obtain ⟨s, hs, rfl⟩ := List.mem_map.1 hx
  exact hw s (Window.mem_of_mem_latest hs)

/-- What a stage gains makes up for what was counted of it. -/
theorem gained_add_counted_nonneg
    (hactive : ∀ id m, l.active.find? id = some m → 0 ≤ m.amounts) {s : Stage}
    (hs : 0 ≤ s.metrics.amounts) : 0 ≤ l.gained s + (l.counted s).amounts := by
  unfold gained
  split
  · rw [zero_add]
    exact counted_nonneg hactive s
  · rwa [sub_add_cancel]

theorem gained_add_counted_of_active {s : Stage} (hs : s.isFinalized = false) :
    l.gained s + (l.counted s).amounts = s.metrics.amounts := by
  rw [gained, skips, hs, Bool.false_and, if_neg Bool.false_ne_true, sub_add_cancel]

/-- Totals above the active stages of a ledger are above those of the ledger after a window. -/
theorem activeSum_after_le {totals : Amounts} (htotals : l.activeSum ≤ totals)
    (hactive : ∀ id m, l.active.find? id = some m → 0 ≤ m.amounts)
    (hw : ∀ s ∈ w, 0 ≤ s.metrics.amounts) :
    (l.after w.latest).activeSum ≤ totals + (w.latest.map l.gained).sum := by
  have hmem : ∀ s ∈ w.latest, 0 ≤ s.metrics.amounts := fun s hs =>
    hw s (Window.mem_of_mem_latest hs)
  -- The finalized stages add up to something, the others to what is active after the window.
  have hsum : (l.after w.latest).activeSum ≤
      (w.latest.map fun s => l.gained s + (l.counted s).amounts).sum := by
    rw [activeSum_after, ← sum_map_ordered fun s => l.gained s + (l.counted s).amounts, ordered,
      List.map_append, List.sum_append]
    have hfinalized : 0 ≤ ((w.latest.filter (·.isFinalized)).map fun s =>
        l.gained s + (l.counted s).amounts).sum := by
      refine List.sum_nonneg fun x hx => ?_
      obtain ⟨s, hs, rfl⟩ := List.mem_map.1 hx
      exact gained_add_counted_nonneg hactive (hmem s (List.mem_of_mem_filter hs))
    refine le_add_of_nonneg_of_le hfinalized (le_of_eq ?_)
    congr 1
    refine List.map_congr_left fun s hs => ?_
    exact (gained_add_counted_of_active (by simpa using List.of_mem_filter hs)).symm
  have hcounted := sum_counted_le (Window.nodup_map_id_latest w) hactive
  calc (l.after w.latest).activeSum
      ≤ (w.latest.map fun s => l.gained s + (l.counted s).amounts).sum := hsum
    _ = (w.latest.map l.gained).sum + (w.latest.map fun s => (l.counted s).amounts).sum :=
        List.sum_map_add
    _ ≤ (w.latest.map l.gained).sum + totals :=
        add_le_add_right (hcounted.trans htotals) _
    _ = totals + (w.latest.map l.gained).sum := add_comm _ _

end Ledger

namespace Update

/-- The totals and the recorded ledger after one window more, in exact arithmetic. -/
def exactStep (r : Amounts × Option Ledger) (w : Window) : Amounts × Option Ledger :=
  (exactTotals r.1 r.2 w, some ((r.2.getD .empty).after w.latest))

/-- The totals and the recorded ledger after windows, none recorded before, in exact
arithmetic. -/
def exactRun (totals : Amounts) (ws : List Window) : Amounts × Option Ledger :=
  ws.foldl exactStep (totals, none)

theorem exactRun_concat (totals : Amounts) (ws : List Window) (w : Window) :
    exactRun totals (ws ++ [w]) = exactStep (exactRun totals ws) w := by
  rw [exactRun, List.foldl_append]
  rfl

variable {ws : List Window} {st : Statistics}

/-- A checked run that succeeds is the exact one. -/
theorem eq_exactRun {r : Statistics × Option Ledger} (hr : run st ws = .ok r) :
    (r.1.totals.amounts, r.2) = exactRun st.totals.amounts ws := by
  induction ws using List.reverseRecOn generalizing r with
  | nil =>
    cases hr
    rfl
  | append_singleton ws w ih =>
    rw [run, List.foldlM_append] at hr
    obtain ⟨mid, hmid, hr⟩ := Checked.bind_eq_ok_iff.1 hr
    obtain ⟨last, hstep, hr⟩ := Checked.foldlM_cons_eq_ok_iff.1 hr
    cases hr
    obtain ⟨htotals, hledger⟩ := step_eq_ok hstep
    rw [exactRun_concat, ← ih hmid, exactStep, htotals, hledger]

/-- The totals are above what the recorded ledger has of active stages. -/
structure Covers (r : Amounts × Option Ledger) : Prop where
  active_nonneg : ∀ l, r.2 = some l → ∀ id m, l.active.find? id = some m → 0 ≤ m.amounts
  activeSum_le : ∀ l, r.2 = some l → l.activeSum ≤ r.1

theorem Covers.step {r : Amounts × Option Ledger} (hr : Covers r) {w : Window}
    (hw : ∀ s ∈ w, 0 ≤ s.metrics.amounts) : Covers (exactStep r w) where
  active_nonneg l hl id m hm := by
    cases hl
    exact Ledger.active_nonneg_after hw hm
  activeSum_le l hl := by
    cases hl
    obtain ⟨totals, recorded⟩ := r
    cases recorded with
    | none => exact Ledger.activeSum_after_le_sum hw .empty
    | some l => exact Ledger.activeSum_after_le (hr.activeSum_le l rfl) (hr.active_nonneg l rfl) hw

theorem covers_exactRun (hws : ∀ w ∈ ws, ∀ s ∈ w, 0 ≤ s.metrics.amounts) (totals : Amounts) :
    Covers (exactRun totals ws) := by
  induction ws using List.reverseRecOn with
  | nil => exact ⟨fun _ h => (nomatch h), fun _ h => (nomatch h)⟩
  | append_singleton ws w ih =>
    rw [exactRun_concat]
    exact (ih fun v hv => hws v (List.mem_append_left _ hv)).step (hws w (by simp))

theorem exists_exactRun_eq (totals : Amounts) (hne : ws ≠ []) :
    ∃ l, (exactRun totals ws).2 = some l := by
  rw [← List.dropLast_append_getLast hne, exactRun_concat]
  exact ⟨_, rfl⟩

/-- After every window of a run the totals are at least what is recorded as active, and so they
are not negative: in exact arithmetic, and in checked arithmetic wherever that succeeds. Only
that no counter is negative is asked of the windows. -/
theorem totals_cover_active (hws : ∀ w ∈ ws, ∀ s ∈ w, 0 ≤ s.metrics.amounts) (hne : ws ≠ [])
    (st : Statistics) :
    (∃ l, (exactRun st.totals.amounts ws).2 = some l ∧
      l.activeSum ≤ (exactRun st.totals.amounts ws).1 ∧
      0 ≤ (exactRun st.totals.amounts ws).1) ∧
    ∀ r, run st ws = .ok r →
      ∃ l, r.2 = some l ∧ l.activeSum ≤ r.1.totals.amounts ∧ 0 ≤ r.1.totals.amounts := by
  have hcovers := covers_exactRun hws st.totals.amounts
  obtain ⟨l, hl⟩ := exists_exactRun_eq st.totals.amounts hne
  have hle := hcovers.activeSum_le l hl
  have hnonneg := (Ledger.activeSum_nonneg (hcovers.active_nonneg l hl)).trans hle
  refine ⟨⟨l, hl, hle, hnonneg⟩, fun r hr => ⟨l, ?_⟩⟩
  rw [← eq_exactRun hr] at hl hle hnonneg
  exact ⟨hl, hle, hnonneg⟩

/-- Three polls: stage 1 shrinks, then it is retried with less, while stage 0 vanishes and comes
back. -/
def shrinkingPolls : List Window :=
  let entry (id attempt amount : Signed64) (status : Stage.Status) : Stage :=
    ⟨status, id, attempt, "", 0, amount, amount, 0⟩
  let n (i : Fin 16) : Signed64 := ⟨i, by omega, by omega⟩
  [[entry (n 1) 0 (n 9) .active, entry 0 0 (n 4) .pending],
    [entry (n 1) 0 (n 6) .active],
    [entry 0 0 (n 3) .unknown, entry (n 1) 0 (n 6) .failed, entry (n 1) (n 1) (n 2) .active]]

theorem totals_cover_active_shrinkingPolls :
    (∀ w ∈ shrinkingPolls, ∀ s ∈ w, 0 ≤ s.metrics.amounts) ∧
      ∃ r l, run .zero shrinkingPolls = .ok r ∧ r.2 = some l ∧
        l.activeSum ≤ r.1.totals.amounts ∧ l.activeSum .input = 5 ∧
        r.1.totals.amounts .input = 9 := by
  have hws : ∀ w ∈ shrinkingPolls, ∀ s ∈ w, 0 ≤ s.metrics.amounts := by
    have h : ∀ w ∈ shrinkingPolls, ∀ s ∈ w, ∀ c ∈ [Stage.Counter.output, .input, .cpu],
        0 ≤ s.metrics.amounts c := by decide +kernel
    intro w hw s hs c
    cases c <;> exact h w hw s hs _ (by decide)
  obtain ⟨r, hr⟩ : ∃ r, run .zero shrinkingPolls = .ok r := ⟨_, rfl⟩
  obtain ⟨l, hl, hle, -⟩ :=
    (totals_cover_active hws (List.cons_ne_nil _ _) .zero).2 r hr
  refine ⟨hws, r, l, hr, hl, hle, ?_⟩
  cases hr
  cases hl
  decide +kernel

end Update

end SparkLedger

import Mathlib.Order.Bounds.Defs
import SparkLedger.Proofs.Stage.Run

/-!
# What a ledger remembers of a run

Of all windows that it has counted a ledger keeps two things: the largest id at which a stage was
finalized, whether the stage was counted or skipped, and the metrics of the stages that the last
window lists as not finalized. Of the ledger that the run began with only the watermark is left.

* `Window.finalizedIds`: the ids that raise a watermark.
* `Ledger.aggregateAll_concat_eq_ok`: the last count of a run, and the counts before it.
* `Ledger.isGreatest_watermark_afterAll`: the watermark after a run is a maximum.
* `Ledger.after_run_eq`: the last window and the watermark determine the ledger.
* `Ledger.remembers_highest_id_and_last_window`: the ledger after a run, and the watermarks on its
  way.
-/

namespace SparkLedger

open Stage (Metrics)

/-- The ids of the stages that windows list as finalized. -/
def Window.finalizedIds (ws : List Window) : Set Int :=
  { id | ∃ w ∈ ws, ∃ s ∈ w.latest, s.isFinalized = true ∧ s.id.val = id }

namespace Ledger

variable {l l' : Ledger} {w : Window} {ws vs : List Window} {counts : List Aggregation}

/-- A run that ends with a window ends with its count. -/
theorem aggregateAll_concat_eq_ok (h : l.aggregateAll (ws ++ [w]) = .ok counts) :
    ∃ before last, counts = before ++ [last] ∧ l.aggregateAll ws = .ok before ∧
      (l.afterAll ws).aggregate w = .ok last := by
  induction ws generalizing l counts with
  | nil =>
    obtain ⟨last, hlast, h⟩ := Checked.bind_eq_ok_iff.1 h
    cases h
    exact ⟨[], last, rfl, rfl, hlast⟩
  | cons v ws ih =>
    obtain ⟨a, ha, h⟩ := Checked.bind_eq_ok_iff.1 h
    obtain ⟨rest, hrest, h⟩ := Checked.bind_eq_ok_iff.1 h
    cases h
    obtain ⟨before, last, rfl, hbefore, hlast⟩ := ih hrest
    refine ⟨a :: before, last, rfl, ?_, ?_⟩
    · exact Checked.bind_eq_ok_iff.2 ⟨a, ha, Checked.bind_eq_ok_iff.2 ⟨before, hbefore, rfl⟩⟩
    · rwa [afterAll_cons, ← (aggregate_eq_ok ha).1]

theorem exists_getLast?_aggregateAll (h : l.aggregateAll (ws ++ [w]) = .ok counts) :
    ∃ last, counts.getLast? = some last ∧ last.ledger = l.afterAll (ws ++ [w]) := by
  obtain ⟨before, last, rfl, -, hlast⟩ := aggregateAll_concat_eq_ok h
  refine ⟨last, List.getLast?_concat, ?_⟩
  rw [(aggregate_eq_ok hlast).1, afterAll_append, afterAll_cons, afterAll_nil]

/-! ## The watermark -/

theorem isGreatest_watermark_afterAll (l : Ledger) (ws : List Window) :
    IsGreatest (insert l.watermark.val (Window.finalizedIds ws)) (l.afterAll ws).watermark.val := by
  constructor
  · -- The watermark is at most itself, so it is at most the old one or some finalized id.
    rcases le_watermark_afterAll_iff.1 (le_refl (l.afterAll ws).watermark.val) with
      hle | ⟨w, hw, s, hs, hfinal, hle⟩
    · have hge : l.watermark.val ≤ (l.afterAll ws).watermark.val :=
        le_watermark_afterAll_iff.2 (.inl le_rfl)
      exact .inl (hle.antisymm hge)
    · have hge : s.id.val ≤ (l.afterAll ws).watermark.val :=
        le_watermark_afterAll_iff.2 (.inr ⟨w, hw, s, hs, hfinal, le_rfl⟩)
      exact .inr ⟨w, hw, s, hs, hfinal, hge.antisymm hle⟩
  · rintro id (rfl | ⟨w, hw, s, hs, hfinal, rfl⟩)
    · exact le_watermark_afterAll_iff.2 (.inl le_rfl)
    · exact le_watermark_afterAll_iff.2 (.inr ⟨w, hw, s, hs, hfinal, le_rfl⟩)

/-- The watermarks of a run never fall. -/
theorem pairwise_watermark (h : l.aggregateAll ws = .ok counts) :
    (l.watermark.val :: counts.map (·.ledger.watermark.val)).Pairwise (· ≤ ·) := by
  induction ws generalizing l counts with
  | nil =>
    cases h
    exact List.pairwise_singleton _ _
  | cons w ws ih =>
    obtain ⟨a, ha, h⟩ := Checked.bind_eq_ok_iff.1 h
    obtain ⟨rest, hrest, h⟩ := Checked.bind_eq_ok_iff.1 h
    cases h
    have hle : l.watermark.val ≤ a.ledger.watermark.val := by
      rw [(aggregate_eq_ok ha).1]
      exact le_watermark_after_iff.2 (.inl le_rfl)
    have htail := ih hrest
    refine List.pairwise_cons.2 ⟨fun x hx => ?_, htail⟩
    rcases List.mem_cons.1 hx with rfl | hx
    · exact hle
    · exact hle.trans ((List.pairwise_cons.1 htail).1 x hx)

/-! ## The ledger -/

/-- After the same last window, ledgers of one watermark are equal, however the runs began. -/
theorem after_run_eq
    (h : (l.afterAll (ws ++ [w])).watermark = (l'.afterAll (vs ++ [w])).watermark) :
    l.afterAll (ws ++ [w]) = l'.afterAll (vs ++ [w]) := by
  refine Ledger.ext h (SortedMap.ext_find? fun id => Option.ext fun m => ?_)
  rw [find?_active_afterAll, find?_active_afterAll]

/-- After a run the watermark is the largest of the one before it and of all finalized ids, and
the active stages are those that the last window lists as not finalized, with their metrics, and
no others. So the watermark never falls, no stage is active that the last window has as finalized,
and runs with one last window and one watermark at their ends have the same ledger. -/
theorem remembers_highest_id_and_last_window (h : l.aggregateAll (ws ++ [w]) = .ok counts) :
    ∃ last, counts.getLast? = some last ∧
      IsGreatest (insert l.watermark.val (Window.finalizedIds (ws ++ [w])))
        last.ledger.watermark.val ∧
      (∀ id m, last.ledger.active.find? id = some m ↔
        ∃ s, w.latestAttempt? id = some s ∧ s.isFinalized = false ∧ s.metrics = m) ∧
      (∀ s ∈ w.latest, s.isFinalized = true → last.ledger.active.find? s.id = none) ∧
      (l.watermark.val :: counts.map (·.ledger.watermark.val)).Pairwise (· ≤ ·) ∧
      ∀ (l' : Ledger) (vs : List Window) (counts' : List Aggregation) (last' : Aggregation),
        l'.aggregateAll (vs ++ [w]) = .ok counts' → counts'.getLast? = some last' →
        last'.ledger.watermark = last.ledger.watermark → last'.ledger = last.ledger := by
  obtain ⟨last, hlast, hledger⟩ := exists_getLast?_aggregateAll h
  have hactive (id : Signed64) (m : Metrics) : last.ledger.active.find? id = some m ↔
      ∃ s, w.latestAttempt? id = some s ∧ s.isFinalized = false ∧ s.metrics = m := by
    rw [hledger, find?_active_afterAll]
    simp only [Window.latestAttempt?_eq_some_iff, and_assoc]
  refine ⟨last, hlast, ?_, hactive, fun s hs hfinal => ?_, pairwise_watermark h, ?_⟩
  · rw [hledger]
    exact isGreatest_watermark_afterAll l _
  · refine Option.eq_none_iff_forall_ne_some.2 fun m hm => ?_
    obtain ⟨t, ht, hopen, -⟩ := (hactive s.id m).1 hm
    rw [Window.mem_latest_iff.1 hs] at ht
    cases ht
    rw [hfinal] at hopen
    cases hopen
  · intro l' vs counts' last' h' hlast' hmark
    obtain ⟨_, hlast'', hledger'⟩ := exists_getLast?_aggregateAll h'
    cases hlast'.symm.trans hlast''
    rw [hledger, hledger'] at hmark ⊢
    exact after_run_eq hmark

/-- A ledger with two active stages, one of them below its watermark. -/
def olderLedger : Ledger :=
  let n (i : Fin 12) : Signed64 := ⟨i, by omega, by omega⟩
  ⟨n 3, .ofList [(n 2, ⟨n 1, n 1, n 1⟩), (n 8, ⟨n 5, n 5, n 5⟩)]⟩

/-- Two polls: stage 1 is finalized and skipped, stage 2 ends below the watermark, stage 8 is never
listed again, and stage 4 is retried after its first attempt has ended. -/
def laterPolls : List Window :=
  let n (i : Fin 12) : Signed64 := ⟨i, by omega, by omega⟩
  let entry (id attempt amount : Signed64) (status : Stage.Status) : Stage :=
    ⟨status, id, attempt, "", 0, amount, amount, amount⟩
  [[entry (n 5) 0 (n 7) .skipped, entry (n 1) 0 (n 4) .complete, entry (n 6) 0 (n 2) .pending],
    [entry (n 4) 0 (n 8) .failed, entry (n 4) (n 1) (n 3) .active, entry (n 2) 0 (n 6) .complete]]

theorem remembers_highest_id_and_last_window_laterPolls :
    ∃ counts last, olderLedger.aggregateAll laterPolls = .ok counts ∧
      counts.getLast? = some last ∧ last.ledger.watermark.val = 5 ∧
      last.ledger.active.toList.map (fun e => (e.1.val, e.2.inputBytes.val)) = [(4, 3)] ∧
      IsGreatest (insert 3 (Window.finalizedIds laterPolls)) last.ledger.watermark.val := by
  obtain ⟨counts, hcounts⟩ : ∃ counts, olderLedger.aggregateAll laterPolls = .ok counts := ⟨_, rfl⟩
  obtain ⟨last, hlast, hgreatest, -⟩ :=
    @remembers_highest_id_and_last_window olderLedger _ [laterPolls.head!] _ hcounts
  refine ⟨counts, last, hcounts, hlast, ?_, ?_, hgreatest⟩
  all_goals
    cases hcounts
    cases hlast
    decide +kernel

end Ledger

end SparkLedger

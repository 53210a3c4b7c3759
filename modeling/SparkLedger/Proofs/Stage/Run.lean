import SparkLedger.Proofs.Stage.Count

/-!
# Windows counted one after the other

The totals and the ledger after a sequence of windows: as an application's record keeps them
(`Update.run`, where the first window is counted in full), and as ledgers alone
(`Ledger.aggregateAll`, where every window is counted into a ledger).

* `Update.run_eq_ok`, `Ledger.aggregateAll_eq_ok`: what a run comes to, by the ledgers on its way.
* `Ledger.find?_active_afterAll`, `Ledger.le_watermark_afterAll_iff`: the ledger after a run.
-/

namespace SparkLedger

open Stage (Metrics Amounts)
open Application (Statistics)

namespace Ledger

/-- The ledger after windows. -/
def afterAll (l : Ledger) (ws : List Window) : Ledger := ws.foldl (fun l w => l.after w.latest) l

/-- What windows add to the totals, one after the other. -/
def gainedAll (l : Ledger) : List Window → Amounts
  | [] => 0
  | w :: ws => (w.latest.map l.gained).sum + (l.after w.latest).gainedAll ws

/-- The counts of windows, one after the other. -/
def aggregateAll (l : Ledger) : List Window → Except Overflow (List Aggregation)
  | [] => .ok []
  | w :: ws => do
    let a ← l.aggregate w
    let rest ← a.ledger.aggregateAll ws
    return a :: rest

variable {l : Ledger} {w : Window} {ws : List Window}

@[simp] theorem afterAll_nil (l : Ledger) : l.afterAll [] = l := rfl

@[simp] theorem afterAll_cons (l : Ledger) (w : Window) (ws : List Window) :
    l.afterAll (w :: ws) = (l.after w.latest).afterAll ws := rfl

theorem afterAll_append (l : Ledger) (ws vs : List Window) :
    l.afterAll (ws ++ vs) = (l.afterAll ws).afterAll vs := List.foldl_append

@[simp] theorem gainedAll_nil (l : Ledger) : l.gainedAll [] = 0 := rfl

theorem gainedAll_cons (l : Ledger) (w : Window) (ws : List Window) :
    l.gainedAll (w :: ws) = (w.latest.map l.gained).sum + (l.after w.latest).gainedAll ws := rfl

theorem gainedAll_append (l : Ledger) (ws vs : List Window) :
    l.gainedAll (ws ++ vs) = l.gainedAll ws + (l.afterAll ws).gainedAll vs := by
  induction ws generalizing l with
  | nil => simp
  | cons w ws ih =>
    rw [List.cons_append, gainedAll_cons, ih, afterAll_cons, gainedAll_cons, add_assoc]

theorem gainedAll_concat (l : Ledger) (ws : List Window) (w : Window) :
    l.gainedAll (ws ++ [w]) = l.gainedAll ws + (w.latest.map (l.afterAll ws).gained).sum := by
  rw [gainedAll_append, gainedAll_cons, gainedAll_nil, add_zero]

theorem aggregate_eq_ok {a : Aggregation} (h : l.aggregate w = .ok a) :
    a.ledger = l.after w.latest ∧ a.delta.amounts = (w.latest.map l.gained).sum := by
  obtain ⟨gap, -, h⟩ := Checked.bind_eq_ok_iff.1 h
  obtain ⟨advance, hfold, h⟩ := Checked.bind_eq_ok_iff.1 h
  cases h
  exact fold_eq_ok hfold

theorem aggregateAll_eq_ok {as : List Aggregation} (h : l.aggregateAll ws = .ok as) :
    (as.map (·.delta.amounts)).sum = l.gainedAll ws := by
  induction ws generalizing l as with
  | nil =>
    cases h
    simp
  | cons w ws ih =>
    obtain ⟨a, ha, h⟩ := Checked.bind_eq_ok_iff.1 h
    obtain ⟨rest, hrest, h⟩ := Checked.bind_eq_ok_iff.1 h
    cases h
    obtain ⟨hl, hd⟩ := aggregate_eq_ok ha
    rw [List.map_cons, List.sum_cons, ih hrest, hd, hl, gainedAll_cons]

/-! ## The ledger after a run -/

/-- After a window the active stages are those that it lists as not finalized. -/
theorem find?_active_afterAll {id : Signed64} {m : Metrics} :
    (l.afterAll (ws ++ [w])).active.find? id = some m ↔
      ∃ s ∈ w.latest, s.id = id ∧ s.isFinalized = false ∧ s.metrics = m := by
  rw [afterAll_append, afterAll_cons, afterAll_nil]
  exact find?_active_after (Window.nodup_map_id_latest w)

/-- The watermark after windows is the largest of the one before and the finalized ids. -/
theorem le_watermark_afterAll_iff {x : Int} :
    x ≤ (l.afterAll ws).watermark.val ↔
      x ≤ l.watermark.val ∨ ∃ w ∈ ws, ∃ s ∈ w.latest, s.isFinalized = true ∧ x ≤ s.id.val := by
  induction ws generalizing l with
  | nil => simp
  | cons w ws ih =>
    rw [afterAll_cons, ih, le_watermark_after_iff]
    simp only [List.mem_cons, exists_eq_or_imp, or_assoc]

end Ledger

namespace Update

/-- One window more: the statistics and the recorded ledger after it. -/
def step (r : Statistics × Option Ledger) (w : Window) :
    Except Overflow (Statistics × Option Ledger) := do
  let u ← compute w r.2
  let s ← u.apply r.1
  return (s, some u.ledger)

/-- The statistics and the recorded ledger after windows, none recorded before. -/
def run (s : Statistics) (ws : List Window) : Except Overflow (Statistics × Option Ledger) :=
  ws.foldlM step (s, none)

variable {w : Window} {ws : List Window} {s s' : Statistics}

theorem compute_none_eq_ok {u : Update} (h : compute w none = .ok u) :
    ∃ totals, u = .full totals (Ledger.empty.after w.latest) ∧
      totals.amounts = (w.latest.map (·.metrics.amounts)).sum := by
  obtain ⟨totals, ht, h⟩ := Checked.bind_eq_ok_iff.1 h
  obtain ⟨l, hl, h⟩ := Checked.bind_eq_ok_iff.1 h
  obtain ⟨a, ha, hl⟩ := Checked.bind_eq_ok_iff.1 hl
  cases hl
  cases h
  exact ⟨totals, by rw [(Ledger.fold_eq_ok ha).1], Window.amounts_of_total ht⟩

theorem compute_some_eq_ok {l : Ledger} {u : Update} (h : compute w (some l) = .ok u) :
    ∃ delta, u = .incremental delta (l.after w.latest) ∧
      delta.amounts = (w.latest.map l.gained).sum := by
  obtain ⟨a, ha, h⟩ := Checked.bind_eq_ok_iff.1 h
  cases h
  obtain ⟨hl, hd⟩ := Ledger.aggregate_eq_ok ha
  exact ⟨a.delta, by rw [hl], hd⟩

theorem apply_full_eq_ok {totals : Metrics} {l : Ledger} (h : apply s (.full totals l) = .ok s') :
    s'.totals = totals ∧ s'.attempts = s.attempts := by
  cases h
  exact ⟨rfl, rfl⟩

theorem apply_incremental_eq_ok {delta : Metrics} {l : Ledger}
    (h : apply s (.incremental delta l) = .ok s') :
    s'.totals.amounts = s.totals.amounts + delta.amounts ∧ s'.attempts = s.attempts := by
  obtain ⟨i, hi, h⟩ := Checked.bind_eq_ok_iff.1 h
  obtain ⟨o, ho, h⟩ := Checked.bind_eq_ok_iff.1 h
  obtain ⟨c, hc, h⟩ := Checked.bind_eq_ok_iff.1 h
  cases h
  refine ⟨Metrics.amounts_eq_iff.2 ⟨?_, ?_, ?_⟩, rfl⟩
  · exact Signed64.add_eq_ok_iff.1 ho
  · exact Signed64.add_eq_ok_iff.1 hi
  · exact Signed64.add_eq_ok_iff.1 hc

/-- An update does to the totals what they say, whatever the attempts. -/
theorem exists_apply_eq_ok {u : Update} {r : Statistics} (hs : s'.totals = s.totals)
    (h : u.apply s = .ok r) : ∃ r', u.apply s' = .ok r' ∧ r'.totals = r.totals := by
  cases u with
  | full totals l =>
    cases h
    exact ⟨_, rfl, rfl⟩
  | incremental delta l =>
    obtain ⟨houtput, hinput, hcpu⟩ := Stage.Metrics.mk.inj hs
    obtain ⟨i, hi, h⟩ := Checked.bind_eq_ok_iff.1 h
    obtain ⟨o, ho, h⟩ := Checked.bind_eq_ok_iff.1 h
    obtain ⟨c, hc, h⟩ := Checked.bind_eq_ok_iff.1 h
    cases h
    rw [← hinput] at hi
    rw [← houtput] at ho
    rw [← hcpu] at hc
    refine ⟨⟨i, o, c, s'.attempts⟩, ?_, rfl⟩
    rw [apply, hi, ho, hc]
    rfl

/-- The exact totals after one window more. -/
def exactTotals (totals : Amounts) (recorded : Option Ledger) (w : Window) : Amounts :=
  match recorded with
  | none => (w.latest.map (·.metrics.amounts)).sum
  | some l => totals + (w.latest.map l.gained).sum

theorem step_eq_ok {recorded : Option Ledger} {r : Statistics × Option Ledger}
    (h : step (s, recorded) w = .ok r) :
    r.1.totals.amounts = exactTotals s.totals.amounts recorded w ∧
      r.2 = some ((recorded.getD .empty).after w.latest) := by
  obtain ⟨u, hu, h⟩ := Checked.bind_eq_ok_iff.1 h
  obtain ⟨s', hs, h⟩ := Checked.bind_eq_ok_iff.1 h
  cases h
  cases recorded with
  | none =>
    obtain ⟨totals, rfl, ht⟩ := compute_none_eq_ok hu
    exact ⟨by rw [(apply_full_eq_ok hs).1, ht]; rfl, rfl⟩
  | some l =>
    obtain ⟨delta, rfl, hd⟩ := compute_some_eq_ok hu
    exact ⟨by rw [(apply_incremental_eq_ok hs).1, hd]; rfl, rfl⟩

private theorem foldlM_step_eq_ok {l : Ledger} {r : Statistics × Option Ledger}
    (h : ws.foldlM step (s, some l) = .ok r) :
    r.1.totals.amounts = s.totals.amounts + l.gainedAll ws ∧ r.2 = some (l.afterAll ws) := by
  induction ws generalizing s l with
  | nil =>
    cases h
    simp
  | cons w ws ih =>
    obtain ⟨⟨s', l'⟩, hstep, h⟩ := Checked.foldlM_cons_eq_ok_iff.1 h
    obtain ⟨ht, hl⟩ := step_eq_ok hstep
    cases hl
    obtain ⟨htotals, hledger⟩ := ih h
    refine ⟨?_, hledger⟩
    rw [htotals, ht, Ledger.gainedAll_cons, ← add_assoc]
    rfl

theorem run_concat {r r' : Statistics × Option Ledger} (h : run s ws = .ok r)
    (hstep : step r w = .ok r') : run s (ws ++ [w]) = .ok r' := by
  rw [run, List.foldlM_append]
  refine Checked.bind_eq_ok_iff.2 ⟨r, h, ?_⟩
  exact Checked.foldlM_cons_eq_ok_iff.2 ⟨r', hstep, rfl⟩

/-- What a run over at least one window comes to. -/
theorem run_eq_ok {r : Statistics × Option Ledger} (h : run s (w :: ws) = .ok r) :
    r.1.totals.amounts =
        (w.latest.map (·.metrics.amounts)).sum + (Ledger.empty.after w.latest).gainedAll ws ∧
      r.2 = some (Ledger.empty.afterAll (w :: ws)) := by
  obtain ⟨⟨s', l'⟩, hstep, h⟩ := Checked.foldlM_cons_eq_ok_iff.1 h
  obtain ⟨ht, hl⟩ := step_eq_ok hstep
  cases hl
  obtain ⟨htotals, hledger⟩ := foldlM_step_eq_ok h
  exact ⟨by rw [htotals, ht]; rfl, hledger⟩

end Update

end SparkLedger

import Mathlib.Algebra.BigOperators.Group.List.Basic
import Mathlib.Algebra.Group.Pi.Basic
import Mathlib.Algebra.Ring.Int.Defs
import Mathlib.Order.Basic
import SparkLedger.Stage.Update

/-!
# Exact amounts

The counters of a stage as integers without bounds, one for each counter. Sums over many stages
are stated with them; a checked operation is the exact one wherever the exact result is a 64-bit
number.

* `Metrics.add_eq_ok_iff_amounts`, `Metrics.sub_eq_ok_iff_amounts`: the checked operations.
* `Metrics.exists_add_of_fits`, `Metrics.exists_sub_of_fits`: when they succeed.
-/

namespace SparkLedger.Stage

/-- The counters of a stage. -/
inductive Counter where
  | output
  | input
  | cpu
  deriving DecidableEq

/-- An exact amount for each counter. -/
abbrev Amounts := Counter → Int

theorem Amounts.le_iff {x y : Amounts} :
    x ≤ y ↔ x .output ≤ y .output ∧ x .input ≤ y .input ∧ x .cpu ≤ y .cpu := by
  constructor
  · exact fun h => ⟨h _, h _, h _⟩
  · rintro ⟨ho, hi, hc⟩ c
    cases c
    · exact ho
    · exact hi
    · exact hc

instance (x y : Amounts) : Decidable (x ≤ y) := decidable_of_iff' _ Amounts.le_iff

/-- Every amount is a 64-bit number. -/
def Amounts.Fits (x : Amounts) : Prop :=
  ∀ c, -9223372036854775808 ≤ x c ∧ x c ≤ 9223372036854775807

namespace Metrics

/-- The counters as exact amounts. -/
def amounts (m : Metrics) : Amounts
  | .output => m.outputBytes.val
  | .input => m.inputBytes.val
  | .cpu => m.cpuTime.val

@[simp] theorem amounts_zero : (0 : Metrics).amounts = 0 := by
  funext c
  cases c <;> rfl

theorem amounts_eq_iff {m : Metrics} {x : Amounts} :
    m.amounts = x ↔
      m.outputBytes.val = x .output ∧ m.inputBytes.val = x .input ∧ m.cpuTime.val = x .cpu := by
  constructor
  · rintro rfl
    exact ⟨rfl, rfl, rfl⟩
  · rintro ⟨ho, hi, hc⟩
    funext c
    cases c
    · exact ho
    · exact hi
    · exact hc

theorem fits (m : Metrics) : m.amounts.Fits := by
  intro c
  cases c
  · exact ⟨m.outputBytes.lo_le, m.outputBytes.le_hi⟩
  · exact ⟨m.inputBytes.lo_le, m.inputBytes.le_hi⟩
  · exact ⟨m.cpuTime.lo_le, m.cpuTime.le_hi⟩

theorem exists_amounts_eq {x : Amounts} (h : x.Fits) : ∃ m : Metrics, m.amounts = x := by
  refine ⟨⟨⟨x .output, (h _).1, (h _).2⟩, ⟨x .input, (h _).1, (h _).2⟩, ⟨x .cpu, (h _).1, (h _).2⟩⟩,
    ?_⟩
  exact amounts_eq_iff.2 ⟨rfl, rfl, rfl⟩

theorem add_eq_ok_iff_amounts {a b c : Metrics} :
    a.add b = .ok c ↔ c.amounts = a.amounts + b.amounts := by
  rw [add_eq_ok_iff, amounts_eq_iff]
  rfl

theorem sub_eq_ok_iff_amounts {a b c : Metrics} :
    a.sub b = .ok c ↔ c.amounts = a.amounts - b.amounts := by
  rw [sub_eq_ok_iff, amounts_eq_iff]
  rfl

theorem exists_add_of_fits {a b : Metrics} (h : (a.amounts + b.amounts).Fits) :
    ∃ c, a.add b = .ok c ∧ c.amounts = a.amounts + b.amounts := by
  obtain ⟨c, hc⟩ := exists_amounts_eq h
  exact ⟨c, add_eq_ok_iff_amounts.2 hc, hc⟩

theorem exists_sub_of_fits {a b : Metrics} (h : (a.amounts - b.amounts).Fits) :
    ∃ c, a.sub b = .ok c ∧ c.amounts = a.amounts - b.amounts := by
  obtain ⟨c, hc⟩ := exists_amounts_eq h
  exact ⟨c, sub_eq_ok_iff_amounts.2 hc, hc⟩

end Metrics

end SparkLedger.Stage

namespace SparkLedger.Window

/-- The sum over the latest attempts is the exact one. -/
theorem amounts_of_total {w : Window} {totals : Stage.Metrics} (h : w.total = .ok totals) :
    totals.amounts = (w.latest.map (·.metrics.amounts)).sum := by
  have hfold {xs : List Stage} {start sum : Stage.Metrics}
      (h : xs.foldlM (fun t s => t.add s.metrics) start = .ok sum) :
      sum.amounts = start.amounts + (xs.map (·.metrics.amounts)).sum := by
    induction xs generalizing start with
    | nil =>
      cases h
      simp
    | cons s xs ih =>
      obtain ⟨mid, hs, hmid⟩ := Checked.foldlM_cons_eq_ok_iff.1 h
      rw [ih hmid, Stage.Metrics.add_eq_ok_iff_amounts.1 hs, List.map_cons, List.sum_cons,
        add_assoc]
  simpa using hfold h

end SparkLedger.Window

namespace SparkLedger.Application

/-- The totals as the counters of one stage. -/
def Statistics.totals (s : Statistics) : Stage.Metrics :=
  ⟨s.totalOutputBytes, s.totalInputBytes, s.totalCpuTime⟩

@[simp] theorem Statistics.totals_withAttempts (s : Statistics) (attempts : List Attempt) :
    ({ s with attempts } : Statistics).totals = s.totals := rfl

end SparkLedger.Application

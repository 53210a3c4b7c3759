import SparkLedger.Proofs.Stage.Overflow

/-!
# Windows that are seen first

A window that is seen first is counted as a plain sum over its latest attempts, by ascending id,
and gets a ledger of its own. It could as well be counted into the ledger that has seen nothing,
the finalized stages before the others. Where no id and no counter is negative this comes to the
same: sums of such counters only grow, so they overflow in every order or in none, and always by an
addition.

* `Checked.Adds`: a computation that overflows by additions only.
* `Stage.Metrics.foldlM_add_eq_ok_iff`: a checked sum succeeds exactly if the exact sum is in range.
* `Window.total_eq_of_perm`: so its order does not matter.
* `Ledger.fold_empty`: a count into the ledger that has seen nothing is such a sum.
* `first_counts_agree`: the two ways to count a first window.
-/

namespace SparkLedger

open Stage (Metrics)
open Application (Statistics)

/-! ## Computations that only add -/

namespace Checked

variable {α β : Type} {x y : Except Overflow α}

/-- If the computation overflows, then by an addition. -/
def Adds (x : Except Overflow α) : Prop := ∀ e, x = .error e → e = .add

theorem adds_ok (a : α) : Adds (.ok a) := nofun

theorem Adds.bind (hx : Adds x) {f : α → Except Overflow β} (hf : ∀ a, Adds (f a)) :
    Adds (x >>= f) := by
  cases x with
  | error e =>
    intro e' he
    cases he
    exact hx e rfl
  | ok a => exact hf a

theorem Adds.foldlM {f : β → α → Except Overflow β} (hf : ∀ b a, Adds (f b a)) (as : List α)
    (b : β) : Adds (as.foldlM f b) := by
  induction as generalizing b with
  | nil => exact adds_ok b
  | cons a as ih =>
    rw [List.foldlM_cons]
    exact (hf b a).bind ih

/-- Computations that only add are equal if they succeed with the same results. -/
theorem Adds.eq_of_ok_iff (hx : Adds x) (hy : Adds y) (h : ∀ a, x = .ok a ↔ y = .ok a) : x = y := by
  cases x with
  | ok a => exact ((h a).1 rfl).symm
  | error e =>
    cases y with
    | ok a => cases (h a).2 rfl
    | error e' => rw [hx e rfl, hy e' rfl]

end Checked

/-! ## Checked sums -/

namespace Stage.Metrics

theorem amounts_inj {a b : Metrics} : a.amounts = b.amounts ↔ a = b := by
  refine ⟨fun h => ?_, fun h => h ▸ rfl⟩
  obtain ⟨ho, hi, hc⟩ := amounts_eq_iff.1 h
  exact Metrics.ext (Ranged.ext ho) (Ranged.ext hi) (Ranged.ext hc)

theorem adds_add (a b : Metrics) : Checked.Adds (a.add b) := by
  have hadd (a b : Signed64) : Checked.Adds (a.add b) := fun _ => Signed64.eq_add_of_add_eq_error
  exact (hadd _ _).bind fun _ => (hadd _ _).bind fun _ => (hadd _ _).bind fun _ =>
    Checked.adds_ok _

theorem sub_zero_eq_ok (a : Metrics) : a.sub 0 = .ok a := by
  rw [sub_eq_ok_iff_amounts, amounts_zero, sub_zero]

/-- A checked sum of metrics that are not negative succeeds exactly if the exact sum is in range. -/
theorem foldlM_add_eq_ok_iff {xs : List Stage} (hxs : ∀ s ∈ xs, 0 ≤ s.metrics.amounts)
    {start sum : Metrics} (hstart : 0 ≤ start.amounts) :
    xs.foldlM (fun t s => t.add s.metrics) start = .ok sum ↔
      sum.amounts = start.amounts + (xs.map (·.metrics.amounts)).sum := by
  induction xs generalizing start with
  | nil =>
    rw [List.map_nil, List.sum_nil, add_zero, amounts_inj]
    exact ⟨fun h => by cases h; rfl, fun h => h ▸ rfl⟩
  | cons s xs ih =>
    obtain ⟨hs, hxs⟩ := List.forall_mem_cons.1 hxs
    have hmid {mid : Metrics} (h : start.add s.metrics = .ok mid) :
        xs.foldlM (fun t s => t.add s.metrics) mid = .ok sum ↔
          sum.amounts = start.amounts + ((s :: xs).map (·.metrics.amounts)).sum := by
      have hamounts := add_eq_ok_iff_amounts.1 h
      rw [ih hxs (hamounts ▸ add_nonneg hstart hs), hamounts, List.map_cons, List.sum_cons,
        add_assoc]
    rw [Checked.foldlM_cons_eq_ok_iff]
    constructor
    · rintro ⟨mid, hadd, hrest⟩
      exact (hmid hadd).1 hrest
    · intro h
      have hfits : (start.amounts + s.metrics.amounts).Fits := by
        intro c
        have hlo : 0 ≤ (start.amounts + s.metrics.amounts) c := add_nonneg hstart hs c
        have hnonneg : 0 ≤ (xs.map (·.metrics.amounts)).sum :=
          List.sum_nonneg (List.forall_mem_map.2 hxs)
        have hrest : 0 ≤ (xs.map (·.metrics.amounts)).sum c := hnonneg c
        have hsum := congrFun h c
        rw [List.map_cons, List.sum_cons, ← add_assoc, Pi.add_apply] at hsum
        have hhi := (sum.fits c).2
        omega
      obtain ⟨mid, hadd, -⟩ := exists_add_of_fits hfits
      exact ⟨mid, hadd, (hmid hadd).2 h⟩

/-- Whether such a sum is in range, and what it is then, does not depend on its order. -/
theorem foldlM_add_eq_of_perm {xs ys : List Stage} (hperm : xs.Perm ys)
    (hxs : ∀ s ∈ xs, 0 ≤ s.metrics.amounts) {start : Metrics} (hstart : 0 ≤ start.amounts) :
    xs.foldlM (fun t s => t.add s.metrics) start = ys.foldlM (fun t s => t.add s.metrics) start := by
  have hadds (zs : List Stage) := Checked.Adds.foldlM (fun t s => adds_add t s.metrics) zs start
  refine (hadds xs).eq_of_ok_iff (hadds ys) fun sum => ?_
  have hys : ∀ s ∈ ys, 0 ≤ s.metrics.amounts := fun s hs => hxs s (hperm.mem_iff.2 hs)
  rw [foldlM_add_eq_ok_iff hxs hstart, foldlM_add_eq_ok_iff hys hstart,
    (hperm.map (·.metrics.amounts)).sum_eq]

end Stage.Metrics

/-! ## Counting into the ledger that has seen nothing -/

namespace Ledger

variable {stages : List Stage}

theorem tally_empty {s : Stage} (hs : 0 ≤ s.id.val) (delta : Metrics) :
    empty.tally delta s = delta.add s.metrics := by
  have hgain : empty.gain delta s = s.metrics.sub 0 >>= delta.add := rfl
  rw [tally, skips_empty hs, hgain, Metrics.sub_zero_eq_ok]
  rfl

private theorem foldlM_tally_empty {xs : List Stage} (hids : ∀ s ∈ xs, 0 ≤ s.id.val)
    (delta : Metrics) :
    xs.foldlM empty.tally delta = xs.foldlM (fun t s => t.add s.metrics) delta := by
  induction xs generalizing delta with
  | nil => rfl
  | cons s xs ih =>
    obtain ⟨hs, hids⟩ := List.forall_mem_cons.1 hids
    rw [List.foldlM_cons, List.foldlM_cons, tally_empty hs]
    exact bind_congr fun mid => ih hids mid

/-- A count into the ledger that has seen nothing adds up the metrics of all stages. -/
theorem fold_empty (hids : ∀ s ∈ stages, 0 ≤ s.id.val)
    (hnonneg : ∀ s ∈ stages, 0 ≤ s.metrics.amounts) :
    empty.fold stages = (stages.foldlM (fun (t : Metrics) s => t.add s.metrics) 0).map fun sum =>
      ⟨sum, empty.after stages⟩ := by
  have hperm : stages.Perm (ordered stages) := (List.filter_append_perm _ stages).symm
  rw [fold_eq, foldlM_tally_empty fun s hs => hids s (hperm.mem_iff.2 hs),
    Metrics.foldlM_add_eq_of_perm hperm hnonneg Metrics.amounts_zero.ge]

section

variable {w : Window} (hids : ∀ s ∈ w, 0 ≤ s.id.val) (hnonneg : ∀ s ∈ w, 0 ≤ s.metrics.amounts)
include hids hnonneg

theorem fold_empty_latest :
    empty.fold w.latest = w.total.map fun totals => ⟨totals, empty.after w.latest⟩ :=
  fold_empty (fun s hs => hids s (Window.mem_of_mem_latest hs))
    fun s hs => hnonneg s (Window.mem_of_mem_latest hs)

theorem ofWindow_eq : ofWindow w = w.total.map fun _ => empty.after w.latest := by
  rw [ofWindow, fold_empty_latest hids hnonneg]
  cases w.total <;> rfl

theorem exists_aggregate_empty_eq :
    ∃ gap, empty.aggregate w = w.total.map fun totals =>
      ⟨⟨totals, empty.after w.latest⟩, gap⟩ := by
  obtain ⟨gap, hgap⟩ : ∃ gap, empty.gap? w.latest = .ok gap := exists_gap_iff.2 (by decide)
  refine ⟨gap, ?_⟩
  rw [aggregate, hgap, fold_empty_latest hids hnonneg]
  cases w.total <;> rfl

end

end Ledger

/-! ## The two ways -/

namespace Update

/-- To statistics without totals, totals are added as they are set. -/
theorem apply_incremental_of_zero {s : Statistics} (hs : s.totals = 0) (totals : Metrics)
    (l : Ledger) : apply s (.incremental totals l) = apply s (.full totals l) := by
  obtain ⟨ho, hi, hc⟩ := Metrics.mk.inj hs
  have hadd {a : Signed64} (ha : a = 0) (n : Signed64) : a.add n = .ok n := by
    rw [Signed64.add_eq_ok_iff, ha]
    exact (zero_add n.val).symm
  exact Checked.bind_eq_ok_iff.2 ⟨_, hadd hi _, Checked.bind_eq_ok_iff.2 ⟨_, hadd ho _,
    Checked.bind_eq_ok_iff.2 ⟨_, hadd hc _, rfl⟩⟩⟩

end Update

/-- Where no id and no counter is negative, a window that is seen first comes to the same whether
it is summed up and gets a ledger, or is counted into the ledger that has seen nothing: the delta
is the sum, the ledgers are equal, and so are statistics that had no totals before. If one of the
two overflows then so does the other. -/
theorem first_counts_agree {w : Window} (hids : ∀ s ∈ w, 0 ≤ s.id.val)
    (hnonneg : ∀ s ∈ w, 0 ≤ s.metrics.amounts) :
    w.total = (Ledger.empty.aggregate w).map (·.delta) ∧
    Ledger.ofWindow w = (Ledger.empty.aggregate w).map (·.ledger) ∧
    ∀ st : Statistics, st.totals = 0 →
      Update.step (st, none) w = Update.step (st, some .empty) w := by
  obtain ⟨gap, hcount⟩ := Ledger.exists_aggregate_empty_eq hids hnonneg
  have hfirst := Ledger.ofWindow_eq hids hnonneg
  refine ⟨?_, ?_, fun st hst => ?_⟩
  · rw [hcount]
    cases w.total <;> rfl
  · rw [hcount, hfirst]
    cases w.total <;> rfl
  · let l := Ledger.empty.after w.latest
    have hfull : Update.compute w none = w.total.map (.full · l) := by
      rw [Update.compute, hfirst]
      cases w.total <;> rfl
    have hincremental : Update.compute w (some .empty) = w.total.map (.incremental · l) := by
      rw [Update.compute, hcount]
      cases w.total <;> rfl
    rw [Update.step, Update.step, hfull, hincremental]
    cases w.total with
    | error e => rfl
    | ok totals =>
      change (Update.apply st (.full totals l) >>= fun s => .ok (s, some l)) =
        (Update.apply st (.incremental totals l) >>= fun s => .ok (s, some l))
      rw [Update.apply_incremental_of_zero hst]

/-- A poll out of order: stage 1 is retried and its retry is active, stage 2 has ended, and so has
stage 0, which is listed last. -/
def disorderedPoll : Window :=
  let entry (id attempt amount : Signed64) (status : Stage.Status) : Stage :=
    ⟨status, id, attempt, "", 0, amount, amount, amount⟩
  let n (i : Fin 17) : Signed64 := ⟨i, by omega, by omega⟩
  [entry (n 2) 0 (n 7) .complete, entry (n 1) (n 1) (n 3) .active, entry (n 1) 0 (n 9) .failed,
    entry 0 0 (n 1) .skipped]

/-- A poll that is too much: by ascending id the sum overflows with stage 1, and with the finalized
stages first it does so with stage 0. -/
def excessivePoll : Window :=
  let many : Signed64 := ⟨9223372036854775806, by decide, by decide⟩
  let n (i : Fin 17) : Signed64 := ⟨i, by omega, by omega⟩
  [⟨.active, 0, 0, "", 0, many, 0, 0⟩, ⟨.complete, n 1, 0, "", 0, n 2, 0, 0⟩]

theorem first_counts_agree_disorderedPoll :
    (∃ r, Update.step (.zero, none) disorderedPoll = .ok r ∧
      Update.step (.zero, some .empty) disorderedPoll = .ok r ∧ r.1.totals.amounts .input = 11) ∧
    excessivePoll.total = .error .add ∧ Ledger.empty.aggregate excessivePoll = .error .add := by
  have hdisordered : (∀ s ∈ disorderedPoll, 0 ≤ s.id.val) ∧
      ∀ s ∈ disorderedPoll, 0 ≤ s.metrics.amounts := by decide +kernel
  have hexcessive : (∀ s ∈ excessivePoll, 0 ≤ s.id.val) ∧
      ∀ s ∈ excessivePoll, 0 ≤ s.metrics.amounts := by decide +kernel
  have hoverflow : excessivePoll.total = .error .add := by decide +kernel
  obtain ⟨-, -, hsteps⟩ := first_counts_agree hdisordered.1 hdisordered.2
  obtain ⟨htotal, -, -⟩ := first_counts_agree hexcessive.1 hexcessive.2
  refine ⟨?_, hoverflow, ?_⟩
  · obtain ⟨r, hr⟩ : ∃ r, Update.step (.zero, none) disorderedPoll = .ok r := ⟨_, rfl⟩
    refine ⟨r, hr, (hsteps .zero rfl).symm.trans hr, ?_⟩
    cases hr
    decide +kernel
  · rw [hoverflow] at htotal
    cases hcount : Ledger.empty.aggregate excessivePoll with
    | error e =>
      rw [hcount] at htotal
      cases htotal
      rfl
    | ok a =>
      rw [hcount] at htotal
      cases htotal

end SparkLedger

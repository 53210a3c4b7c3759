import Mathlib.Algebra.Order.BigOperators.Group.Finset
import Mathlib.Algebra.Order.Group.Int
import Mathlib.Algebra.Order.Pi
import SparkLedger.Proofs.Stage.Run

/-!
# Counts that stay in range

Deltas of a count may be negative on the way, but never by more than what the ledger has of
active stages, and never above the sum of the window. So a count of moderate windows does not
leave the range of 64-bit numbers, whatever the order of its stages.

* `Ledger.activeSum_after`: what a ledger has of active stages is part of the last window.
* `Ledger.exists_aggregate`: a moderate window is counted without overflow.
* `Update.exists_compute`, `Update.exists_apply`: so are updates, and their totals if the exact
  ones are in range. `Update.exists_step` is both.
-/

namespace SparkLedger

open Stage (Metrics Amounts)
open Application (Statistics)

/-- A window whose ids leave room for one more, whose counters are not negative, and whose sums
are 64-bit numbers. -/
structure Window.Moderate (w : Window) : Prop where
  id_lt : ∀ s ∈ w, s.id.val < 9223372036854775807
  metrics_nonneg : ∀ s ∈ w, 0 ≤ s.metrics.amounts
  sum_le : ∀ c, (w.latest.map (·.metrics.amounts)).sum c ≤ 9223372036854775807

namespace Ledger

variable {l : Ledger} {w : Window}

/-- What a ledger has of active stages. -/
def activeSum (l : Ledger) : Amounts := (l.active.values.map (·.amounts)).sum

/-- A ledger as moderate windows leave it. -/
structure Moderate (l : Ledger) : Prop where
  watermark_lt : l.watermark.val < 9223372036854775807
  active_nonneg : ∀ id m, l.active.find? id = some m → 0 ≤ m.amounts
  activeSum_le : ∀ c, l.activeSum c ≤ 9223372036854775807

theorem moderate_empty : Moderate .empty where
  watermark_lt := by decide
  active_nonneg _ _ h := nomatch h
  activeSum_le c := by
    change (0 : Int) ≤ 9223372036854775807
    decide

/-! ## What is active -/

theorem toList_active_after (l : Ledger) (w : Window) :
    (l.after w.latest).active.toList =
      (w.latest.filter (!·.isFinalized)).map fun s => (s.id, s.metrics) := by
  have hasc : Assoc.Ascending ((w.latest.filter (!·.isFinalized)).map fun s => (s.id, s.metrics)) :=
    List.pairwise_map.2 (((Window.pairwise_latest w).filter _).imp Ranged.compare_eq_lt_iff.2)
  refine (l.after w.latest).active.ascending.ext_find? hasc fun id => Option.ext fun m => ?_
  have hmem : Assoc.find? id ((w.latest.filter (!·.isFinalized)).map fun s => (s.id, s.metrics)) =
      some m ↔ (id, m) ∈ (w.latest.filter (!·.isFinalized)).map fun s => (s.id, s.metrics) :=
    ⟨Assoc.mem_of_find?, hasc.distinct.find?_eq_of_mem⟩
  rw [hmem]
  refine (find?_active_after (Window.nodup_map_id_latest w)).trans ?_
  simp only [List.mem_map, List.mem_filter, Prod.mk.injEq, Bool.not_eq_true']
  constructor
  · rintro ⟨s, hs, hid, hact, hm⟩
    exact ⟨s, ⟨hs, hact⟩, hid, hm⟩
  · rintro ⟨s, ⟨hs, hact⟩, hid, hm⟩
    exact ⟨s, hs, hid, hact, hm⟩

/-- After a window the ledger has the metrics of the stages that are not finalized. -/
theorem activeSum_after (l : Ledger) (w : Window) :
    (l.after w.latest).activeSum =
      ((w.latest.filter (!·.isFinalized)).map (·.metrics.amounts)).sum := by
  rw [activeSum, SortedMap.values, toList_active_after, List.map_map, List.map_map]
  rfl

/-- Every active stage is subtracted at most once. -/
theorem sum_counted_le {xs : List Stage} (hids : (xs.map (·.id)).Nodup)
    (hactive : ∀ id m, l.active.find? id = some m → 0 ≤ m.amounts) :
    (xs.map fun s => (l.counted s).amounts).sum ≤ l.activeSum := by
  let had (id : Signed64) : Amounts := ((l.active.find? id).getD 0).amounts
  let keys := (l.active.toList.map (·.1)).toFinset
  have hnonneg : ∀ id, 0 ≤ had id := by
    intro id
    cases hf : l.active.find? id with
    | none => simp [had, hf]
    | some m => simpa [had, hf] using hactive id m hf
  have hzero : ∀ id, id ∉ keys → had id = 0 := by
    intro id hid
    have : l.active.find? id = none := by
      refine Option.eq_none_iff_forall_ne_some.2 fun m hm => hid ?_
      exact List.mem_toFinset.2 (List.mem_map_of_mem (SortedMap.mem_toList_iff.2 hm))
    simp [had, this]
  have hkeys : (l.active.toList.map (·.1)).Nodup := by
    rw [List.Nodup, List.pairwise_map]
    exact l.active.ascending.imp fun hlt heq => by
      rw [heq, Std.ReflOrd.compare_self] at hlt
      cases hlt
  have hsum : l.activeSum = ∑ id ∈ keys, had id := by
    rw [List.sum_toFinset _ hkeys, activeSum, SortedMap.values, List.map_map, List.map_map]
    congr 1
    refine List.map_congr_left fun e he => ?_
    simp [had, SortedMap.mem_toList_iff.1 he]
  calc (xs.map fun s => (l.counted s).amounts).sum
      = ∑ id ∈ (xs.map (·.id)).toFinset, had id := by
        rw [List.sum_toFinset _ hids, List.map_map]
        rfl
    _ ≤ ∑ id ∈ (xs.map (·.id)).toFinset ∪ keys, had id :=
        Finset.sum_le_sum_of_subset_of_nonneg Finset.subset_union_left fun id _ _ => hnonneg id
    _ = ∑ id ∈ keys, had id :=
        (Finset.sum_subset Finset.subset_union_right fun id _ hid => hzero id hid).symm
    _ = l.activeSum := hsum.symm

theorem counted_nonneg (hactive : ∀ id m, l.active.find? id = some m → 0 ≤ m.amounts) (s : Stage) :
    0 ≤ (l.counted s).amounts := by
  rw [counted_eq]
  cases hf : l.active.find? s.id with
  | none => simp
  | some m => exact hactive s.id m hf

theorem Moderate.after (hl : l.Moderate) (hw : w.Moderate) : (l.after w.latest).Moderate where
  watermark_lt := by
    rcases le_watermark_after_iff.1 (le_refl (l.after w.latest).watermark.val) with
      hle | ⟨s, hs, -, hle⟩
    · exact hle.trans_lt hl.watermark_lt
    · exact hle.trans_lt (hw.id_lt s (Window.mem_of_mem_latest hs))
  active_nonneg id m hm := by
    obtain ⟨s, hs, -, -, rfl⟩ := (find?_active_after (Window.nodup_map_id_latest w)).1 hm
    exact hw.metrics_nonneg s (Window.mem_of_mem_latest hs)
  activeSum_le c := by
    have hle : (l.after w.latest).activeSum ≤ (w.latest.map (·.metrics.amounts)).sum := by
      rw [activeSum_after]
      refine (List.filter_sublist.map _).sum_le_sum fun x hx => ?_
      obtain ⟨s, hs, rfl⟩ := List.mem_map.1 hx
      exact hw.metrics_nonneg s (Window.mem_of_mem_latest hs)
    exact (hle c).trans (hw.sum_le c)

/-! ## Sums on the way -/

private theorem exists_foldlM_tally {xs : List Stage} {delta : Metrics}
    (hnew : ∀ s ∈ xs, (s.metrics.amounts - (l.counted s).amounts).Fits)
    (hsum : ∀ ys, ys <+: xs → (delta.amounts + (ys.map l.gained).sum).Fits) :
    ∃ delta', xs.foldlM l.tally delta = .ok delta' := by
  induction xs generalizing delta with
  | nil => exact ⟨delta, rfl⟩
  | cons s xs ih =>
    obtain ⟨mid, hmid⟩ : ∃ mid, l.tally delta s = .ok mid := by
      by_cases hskip : l.skips s
      · exact ⟨delta, by simp [tally, hskip]⟩
      · obtain ⟨new, hsub, hamounts⟩ := Metrics.exists_sub_of_fits (hnew s List.mem_cons_self)
        have hfits := hsum [s] (by simp)
        rw [List.map_singleton, List.sum_singleton, gained, if_neg hskip, ← hamounts] at hfits
        obtain ⟨mid, hadd, -⟩ := Metrics.exists_add_of_fits hfits
        refine ⟨mid, ?_⟩
        rw [tally, if_neg hskip]
        exact Checked.bind_eq_ok_iff.2 ⟨new, hsub, hadd⟩
    obtain ⟨delta', hdelta⟩ := ih (fun t ht => hnew t (List.mem_cons_of_mem _ ht)) fun ys hys => by
      have := hsum (s :: ys) (List.cons_prefix_cons.2 ⟨rfl, hys⟩)
      rwa [List.map_cons, List.sum_cons, ← add_assoc, ← amounts_of_tally hmid] at this
    exact ⟨delta', Checked.foldlM_cons_eq_ok_iff.2 ⟨mid, hmid, hdelta⟩⟩

/-- The sum of what some stages of a window gain is bounded by the window and the ledger. -/
theorem gained_sum_bounds (hl : l.Moderate) (hw : w.Moderate) {ys : List Stage}
    (hys : ys.Subperm w.latest) :
    -l.activeSum ≤ (ys.map l.gained).sum ∧
      (ys.map l.gained).sum ≤ (w.latest.map (·.metrics.amounts)).sum := by
  have hmem : ∀ s ∈ ys, 0 ≤ s.metrics.amounts := fun s hs =>
    hw.metrics_nonneg s (Window.mem_of_mem_latest (hys.subset hs))
  have hcounted := counted_nonneg hl.active_nonneg
  constructor
  · have hids : (ys.map (·.id)).Nodup := by
      obtain ⟨zs, hperm, hsub⟩ := hys
      exact (hperm.map _).nodup_iff.1 ((Window.nodup_map_id_latest w).sublist (hsub.map _))
    have hsum : 0 ≤ (ys.map fun s => l.gained s + (l.counted s).amounts).sum := by
      refine List.sum_nonneg fun x hx => ?_
      obtain ⟨s, hs, rfl⟩ := List.mem_map.1 hx
      unfold gained
      split
      · rw [zero_add]
        exact hcounted s
      · rw [sub_add_cancel]
        exact hmem s hs
    rw [List.sum_map_add] at hsum
    exact (neg_le_neg (sum_counted_le hids hl.active_nonneg)).trans (neg_le_iff_add_nonneg.2 hsum)
  · have hle : (ys.map l.gained).sum ≤ (ys.map (·.metrics.amounts)).sum := by
      refine List.sum_le_sum fun s hs => ?_
      unfold gained
      split
      · exact hmem s hs
      · exact sub_le_self _ (hcounted s)
    obtain ⟨zs, hperm, hsub⟩ := hys
    rw [← (hperm.map (·.metrics.amounts)).sum_eq] at hle
    refine hle.trans ((hsub.map _).sum_le_sum fun x hx => ?_)
    obtain ⟨s, hs, rfl⟩ := List.mem_map.1 hx
    exact hw.metrics_nonneg s (Window.mem_of_mem_latest hs)

theorem exists_fold (hl : l.Moderate) (hw : w.Moderate) : ∃ a, l.fold w.latest = .ok a := by
  have hperm : (ordered w.latest).Perm w.latest := List.filter_append_perm _ _
  have hbounds {ys : List Stage} (hys : ys.Subperm w.latest) : ((ys.map l.gained).sum).Fits := by
    intro c
    obtain ⟨hlo, hhi⟩ := gained_sum_bounds hl hw hys
    have h1 : -(l.activeSum c) ≤ (ys.map l.gained).sum c := hlo c
    have h2 := hl.activeSum_le c
    have h3 : (ys.map l.gained).sum c ≤ 9223372036854775807 := (hhi c).trans (hw.sum_le c)
    omega
  have hnew : ∀ s ∈ ordered w.latest, (s.metrics.amounts - (l.counted s).amounts).Fits := by
    intro s hs c
    have h1 := s.metrics.fits c
    have h2 := (l.counted s).fits c
    have h3 : 0 ≤ s.metrics.amounts c :=
      hw.metrics_nonneg s (Window.mem_of_mem_latest (hperm.subset hs)) c
    have h4 : 0 ≤ (l.counted s).amounts c := counted_nonneg hl.active_nonneg s c
    rw [Pi.sub_apply]
    omega
  obtain ⟨delta, hdelta⟩ : ∃ delta, (ordered w.latest).foldlM l.tally 0 = .ok delta := by
    refine exists_foldlM_tally hnew fun ys hys => ?_
    rw [Metrics.amounts_zero, zero_add]
    exact hbounds (hys.sublist.subperm.trans hperm.subperm)
  exact ⟨⟨delta, l.after w.latest⟩, by rw [fold_eq, hdelta]; rfl⟩

/-- A gap is looked for without overflow exactly if an id may follow the watermark. -/
theorem exists_gap_iff {stages : List Stage} :
    (∃ gap, l.gap? stages = .ok gap) ↔ l.watermark.val < 9223372036854775807 := by
  constructor
  · rintro ⟨gap, hgap⟩
    obtain ⟨expected, hexpected, -⟩ := Checked.bind_eq_ok_iff.1 hgap
    have hval : expected.val = l.watermark.val + 1 := Signed64.add_eq_ok_iff.1 hexpected
    have hhi := expected.le_hi
    omega
  · intro h
    have hlo := l.watermark.lo_le
    exact ⟨_, Checked.bind_eq_ok_iff.2
      ⟨⟨l.watermark.val + 1, by omega, by omega⟩, Signed64.add_eq_ok_iff.2 rfl, rfl⟩⟩

theorem exists_aggregate (hl : l.Moderate) (hw : w.Moderate) : ∃ a, l.aggregate w = .ok a := by
  obtain ⟨gap, hgap⟩ := exists_gap_iff.2 hl.watermark_lt
  obtain ⟨a, ha⟩ := exists_fold hl hw
  exact ⟨⟨a, gap⟩, Checked.bind_eq_ok_iff.2 ⟨gap, hgap, Checked.bind_eq_ok_iff.2 ⟨a, ha, rfl⟩⟩⟩

theorem exists_aggregateAll {ws : List Window} (hl : l.Moderate) (hws : ∀ w ∈ ws, w.Moderate) :
    ∃ as, l.aggregateAll ws = .ok as := by
  induction ws generalizing l with
  | nil => exact ⟨[], rfl⟩
  | cons w ws ih =>
    have hw := hws w List.mem_cons_self
    obtain ⟨a, ha⟩ := exists_aggregate hl hw
    have hafter : a.ledger.Moderate := (aggregate_eq_ok ha).1 ▸ hl.after hw
    obtain ⟨as, has⟩ := ih hafter fun v hv => hws v (List.mem_cons_of_mem _ hv)
    exact ⟨a :: as, Checked.bind_eq_ok_iff.2 ⟨a, ha, Checked.bind_eq_ok_iff.2 ⟨as, has, rfl⟩⟩⟩

end Ledger

/-! ## Totals -/

theorem Window.exists_total {w : Window} (hw : w.Moderate) : ∃ totals, w.total = .ok totals := by
  have hfold {xs : List Stage} {start : Metrics}
      (hsum : ∀ ys, ys <+: xs → (start.amounts + (ys.map (·.metrics.amounts)).sum).Fits) :
      ∃ sum, xs.foldlM (fun t s => t.add s.metrics) start = .ok sum := by
    induction xs generalizing start with
    | nil => exact ⟨start, rfl⟩
    | cons s xs ih =>
      have hfits := hsum [s] (by simp)
      rw [List.map_singleton, List.sum_singleton] at hfits
      obtain ⟨mid, hadd, hmid⟩ := Metrics.exists_add_of_fits hfits
      obtain ⟨sum, hrest⟩ : ∃ sum, xs.foldlM (fun t s => t.add s.metrics) mid = .ok sum := by
        refine ih fun ys hys => ?_
        have := hsum (s :: ys) (List.cons_prefix_cons.2 ⟨rfl, hys⟩)
        rwa [List.map_cons, List.sum_cons, ← add_assoc, ← hmid] at this
      exact ⟨sum, Checked.foldlM_cons_eq_ok_iff.2 ⟨mid, hadd, hrest⟩⟩
  refine hfold fun ys hys c => ?_
  have hnonneg : ∀ x ∈ w.latest.map (·.metrics.amounts), 0 ≤ x := fun x hx => by
    obtain ⟨s, hs, rfl⟩ := List.mem_map.1 hx
    exact hw.metrics_nonneg s (Window.mem_of_mem_latest hs)
  have hle : (ys.map (·.metrics.amounts)).sum c ≤ (w.latest.map (·.metrics.amounts)).sum c :=
    (hys.sublist.map _).sum_le_sum hnonneg c
  have hlo : 0 ≤ (ys.map (·.metrics.amounts)).sum c :=
    List.sum_nonneg (fun x hx => hnonneg x ((hys.sublist.map _).subset hx)) c
  have hhi := hw.sum_le c
  rw [Metrics.amounts_zero, zero_add]
  omega

namespace Update

/-- A moderate window is counted without overflow, whatever is recorded. -/
theorem exists_compute {recorded : Option Ledger} {w : Window}
    (hl : ∀ l, recorded = some l → l.Moderate) (hw : w.Moderate) :
    ∃ u, compute w recorded = .ok u := by
  cases recorded with
  | none =>
    obtain ⟨totals, ht⟩ := Window.exists_total hw
    obtain ⟨a, ha⟩ := Ledger.exists_fold Ledger.moderate_empty hw
    have hl : Ledger.ofWindow w = .ok a.ledger := Checked.bind_eq_ok_iff.2 ⟨a, ha, rfl⟩
    exact ⟨.full totals a.ledger,
      Checked.bind_eq_ok_iff.2 ⟨totals, ht, Checked.bind_eq_ok_iff.2 ⟨a.ledger, hl, rfl⟩⟩⟩
  | some l =>
    obtain ⟨a, ha⟩ := Ledger.exists_aggregate (hl l rfl) hw
    exact ⟨.incremental a.delta a.ledger, Checked.bind_eq_ok_iff.2 ⟨a, ha, rfl⟩⟩

/-- The totals after an update, as exact amounts. -/
def exactApply (totals : Amounts) : Update → Amounts
  | .full totals' _ => totals'.amounts
  | .incremental delta _ => totals + delta.amounts

theorem exactApply_eq {recorded : Option Ledger} {w : Window} {u : Update}
    (h : compute w recorded = .ok u) (totals : Amounts) :
    exactApply totals u = exactTotals totals recorded w := by
  cases recorded with
  | none =>
    obtain ⟨totals', rfl, ht⟩ := compute_none_eq_ok h
    exact ht
  | some l =>
    obtain ⟨delta, rfl, hd⟩ := compute_some_eq_ok h
    exact congrArg (totals + ·) hd

/-- An update applies if the exact totals are in range. -/
theorem exists_apply {s : Statistics} {u : Update} (hfits : (exactApply s.totals.amounts u).Fits) :
    ∃ s', u.apply s = .ok s' := by
  cases u with
  | full totals l => exact ⟨_, rfl⟩
  | incremental delta l =>
    obtain ⟨m, hm⟩ := Metrics.exists_amounts_eq hfits
    obtain ⟨ho, hi, hc⟩ := Metrics.amounts_eq_iff.1 hm
    exact ⟨⟨m.inputBytes, m.outputBytes, m.cpuTime, s.attempts⟩,
      Checked.bind_eq_ok_iff.2 ⟨_, Signed64.add_eq_ok_iff.2 hi, Checked.bind_eq_ok_iff.2
        ⟨_, Signed64.add_eq_ok_iff.2 ho, Checked.bind_eq_ok_iff.2
          ⟨_, Signed64.add_eq_ok_iff.2 hc, rfl⟩⟩⟩⟩

/-- A moderate window advances the totals, if the exact ones are in range. -/
theorem exists_step {s : Statistics} {recorded : Option Ledger} {w : Window}
    (hl : ∀ l, recorded = some l → l.Moderate) (hw : w.Moderate)
    (hfits : (exactTotals s.totals.amounts recorded w).Fits) :
    ∃ r, step (s, recorded) w = .ok r := by
  obtain ⟨u, hu⟩ := exists_compute hl hw
  rw [← exactApply_eq hu] at hfits
  obtain ⟨s', hs⟩ := exists_apply hfits
  exact ⟨_, Checked.bind_eq_ok_iff.2 ⟨u, hu, Checked.bind_eq_ok_iff.2 ⟨s', hs, rfl⟩⟩⟩

end Update

end SparkLedger

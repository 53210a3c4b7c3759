import Mathlib.Algebra.Order.BigOperators.Group.List
import SparkLedger.Proofs.Stage.Amounts
import SparkLedger.Proofs.Stage.Latest

/-!
# What a count does

`Ledger.fold` counts the finalized stages before the others and keeps sums, watermark and active
stages side by side. The ledger after it does not depend on the sums, and the sums are one
checked sum of what each stage gains.

* `fold_eq`: a count is a checked sum of gains, with the ledger `Ledger.after` beside it.
* `fold_eq_ok`: the result of a count that succeeds.
* `le_watermark_after_iff`, `find?_active_after`: the ledger after a count, by its parts.
-/

namespace SparkLedger.Ledger

open Stage (Metrics Amounts)

variable {l : Ledger} {stages : List Stage}

/-- Whether a count adds nothing for a stage because it was counted in full. -/
def skips (l : Ledger) (s : Stage) : Bool := s.isFinalized && l.settled s

/-- What a stage adds to the totals. -/
def gained (l : Ledger) (s : Stage) : Amounts :=
  if l.skips s then 0 else s.metrics.amounts - (l.counted s).amounts

/-- The stages in the order in which they are counted. -/
def ordered (stages : List Stage) : List Stage :=
  stages.filter (·.isFinalized) ++ stages.filter (!·.isFinalized)

/-- Adds the gain of a stage to a sum. -/
def tally (l : Ledger) (delta : Metrics) (s : Stage) : Except Overflow Metrics :=
  if l.skips s then .ok delta else l.gain delta s

/-- The ledger after a count. -/
def after (l : Ledger) (stages : List Stage) : Ledger where
  watermark := (stages.filter (·.isFinalized)).foldl
    (fun mark s => if l.settled s then mark else later mark s.id) l.watermark
  active := (stages.filter (!·.isFinalized)).foldl (fun m s => m.insert s.id s.metrics) .empty

/-! ## A count as a sum -/

private theorem foldlM_countFinalized (l : Ledger) (xs : List Stage)
    (hxs : ∀ s ∈ xs, s.isFinalized = true) (delta : Metrics) (mark : Signed64) :
    xs.foldlM l.countFinalized (delta, mark) =
      (xs.foldlM l.tally delta).map fun delta =>
        (delta, xs.foldl (fun mark s => if l.settled s then mark else later mark s.id) mark) := by
  induction xs generalizing delta mark with
  | nil => rfl
  | cons s xs ih =>
    have ih := ih fun t ht => hxs t (List.mem_cons_of_mem _ ht)
    have hs : s.isFinalized = true := hxs s List.mem_cons_self
    rw [List.foldlM_cons, List.foldlM_cons, List.foldl_cons]
    by_cases hskip : l.settled s
    · have h1 : l.countFinalized (delta, mark) s = .ok (delta, mark) := by
        simp [countFinalized, hskip]
      have h2 : l.tally delta s = .ok delta := by simp [tally, skips, hs, hskip]
      rw [h1, h2, if_pos hskip]
      exact ih delta mark
    · have h1 : l.countFinalized (delta, mark) s =
          (l.gain delta s).map fun delta => (delta, later mark s.id) := by
        unfold countFinalized
        rw [if_neg hskip]
        cases l.gain delta s <;> rfl
      have h2 : l.tally delta s = l.gain delta s := by simp [tally, skips, hskip]
      rw [h1, h2, if_neg hskip]
      cases l.gain delta s with
      | error e => rfl
      | ok delta => exact ih delta (later mark s.id)

private theorem foldlM_countActive (l : Ledger) (xs : List Stage)
    (hxs : ∀ s ∈ xs, s.isFinalized = false) (delta : Metrics) (m : SortedMap Signed64 Metrics) :
    xs.foldlM l.countActive (delta, m) =
      (xs.foldlM l.tally delta).map fun delta =>
        (delta, xs.foldl (fun m s => m.insert s.id s.metrics) m) := by
  induction xs generalizing delta m with
  | nil => rfl
  | cons s xs ih =>
    have ih := ih fun t ht => hxs t (List.mem_cons_of_mem _ ht)
    have h1 : l.countActive (delta, m) s =
        (l.gain delta s).map fun delta => (delta, m.insert s.id s.metrics) := by
      unfold countActive
      cases l.gain delta s <;> rfl
    have h2 : l.tally delta s = l.gain delta s := by
      simp [tally, skips, hxs s List.mem_cons_self]
    rw [List.foldlM_cons, List.foldlM_cons, List.foldl_cons, h1, h2]
    cases l.gain delta s with
    | error e => rfl
    | ok delta => exact ih delta (m.insert s.id s.metrics)

theorem fold_eq (l : Ledger) (stages : List Stage) :
    l.fold stages =
      ((ordered stages).foldlM l.tally 0).map fun delta => ⟨delta, l.after stages⟩ := by
  have h1 := foldlM_countFinalized l (stages.filter (·.isFinalized))
    (fun s hs => by simpa using List.of_mem_filter hs) 0 l.watermark
  have h2 := fun delta => foldlM_countActive l (stages.filter (!·.isFinalized))
    (fun s hs => by simpa using List.of_mem_filter hs) delta .empty
  rw [fold, h1, ordered, List.foldlM_append]
  cases (stages.filter (·.isFinalized)).foldlM l.tally 0 with
  | error e => rfl
  | ok delta =>
    change (do
      let r ← (stages.filter (!·.isFinalized)).foldlM l.countActive (delta, .empty)
      _) = ((stages.filter (!·.isFinalized)).foldlM l.tally delta).map _
    rw [h2]
    cases (stages.filter (!·.isFinalized)).foldlM l.tally delta <;> rfl

theorem amounts_of_gain {delta delta' : Metrics} {s : Stage} (h : l.gain delta s = .ok delta') :
    delta'.amounts = delta.amounts + (s.metrics.amounts - (l.counted s).amounts) := by
  obtain ⟨new, hsub, hadd⟩ := Checked.bind_eq_ok_iff.1 h
  rw [Metrics.add_eq_ok_iff_amounts.1 hadd, Metrics.sub_eq_ok_iff_amounts.1 hsub]

theorem amounts_of_tally {delta delta' : Metrics} {s : Stage} (h : l.tally delta s = .ok delta') :
    delta'.amounts = delta.amounts + l.gained s := by
  by_cases hskip : l.skips s
  · have : delta = delta' := by simpa [tally, hskip] using h
    simp [gained, hskip, this]
  · rw [tally, if_neg hskip] at h
    rw [gained, if_neg hskip, amounts_of_gain h]

private theorem amounts_of_foldlM_tally {delta delta' : Metrics} {xs : List Stage}
    (h : xs.foldlM l.tally delta = .ok delta') :
    delta'.amounts = delta.amounts + (xs.map l.gained).sum := by
  induction xs generalizing delta with
  | nil =>
    cases h
    simp
  | cons s xs ih =>
    obtain ⟨mid, hs, hmid⟩ := Checked.foldlM_cons_eq_ok_iff.1 h
    rw [ih hmid, amounts_of_tally hs, List.map_cons, List.sum_cons, add_assoc]

theorem sum_map_ordered {M : Type} [AddCommMonoid M] (f : Stage → M) (stages : List Stage) :
    ((ordered stages).map f).sum = (stages.map f).sum := by
  refine (List.Perm.map f ?_).sum_eq
  exact List.filter_append_perm _ stages

theorem fold_eq_ok {a : Advance} (h : l.fold stages = .ok a) :
    a.ledger = l.after stages ∧ a.delta.amounts = (stages.map l.gained).sum := by
  rw [fold_eq] at h
  cases hd : (ordered stages).foldlM l.tally 0 with
  | error e => simp [hd, Except.map] at h
  | ok delta =>
    have ha : a = ⟨delta, l.after stages⟩ := by simpa [hd, Except.map] using h.symm
    subst ha
    refine ⟨rfl, ?_⟩
    rw [amounts_of_foldlM_tally hd, sum_map_ordered]
    simp

/-! ## The ledger after a count -/

theorem counted_eq (l : Ledger) (s : Stage) : l.counted s = (l.active.find? s.id).getD 0 := rfl

theorem settled_iff {s : Stage} :
    l.settled s = true ↔ s.id.val ≤ l.watermark.val ∧ l.active.find? s.id = none := by
  simp [settled, SortedMap.contains]

theorem skips_iff {s : Stage} :
    l.skips s = true ↔
      s.isFinalized = true ∧ s.id.val ≤ l.watermark.val ∧ l.active.find? s.id = none := by
  rw [skips, Bool.and_eq_true, settled_iff]

theorem skips_empty {s : Stage} (h : 0 ≤ s.id.val) : empty.skips s = false := by
  rw [skips, Bool.and_eq_false_iff]
  refine .inr (Bool.eq_false_iff.2 fun hsettled => ?_)
  have hle : s.id.val ≤ -1 := (settled_iff.1 hsettled).1
  omega

/-- A ledger that has seen nothing counts every stage in full. -/
theorem gained_empty {s : Stage} (h : 0 ≤ s.id.val) : empty.gained s = s.metrics.amounts := by
  rw [gained, skips_empty h]
  simp [counted_eq, empty]

private theorem le_foldl_later_iff {xs : List Stage} {mark : Signed64} {x : Int}
    (hmark : l.watermark.val ≤ mark.val) :
    x ≤ (xs.foldl (fun mark s => if l.settled s then mark else later mark s.id) mark).val ↔
      x ≤ mark.val ∨ ∃ s ∈ xs, x ≤ s.id.val := by
  induction xs generalizing mark with
  | nil => simp
  | cons s xs ih =>
    rw [List.foldl_cons]
    simp only [List.mem_cons, exists_eq_or_imp]
    by_cases hskip : l.settled s
    · -- A stage that is skipped is below the watermark, so it does not matter for the maximum.
      have hle := (settled_iff.1 hskip).1
      rw [if_pos hskip, ih hmark]
      constructor
      · rintro (h | h)
        · exact .inl h
        · exact .inr (.inr h)
      · rintro (h | h | h)
        · exact .inl h
        · exact .inl (by omega)
        · exact .inr h
    · have hlater : (later mark s.id).val = max mark.val s.id.val := by
        unfold later
        split <;> omega
      rw [if_neg hskip, ih (by omega), hlater, le_max_iff, or_assoc]

/-- The watermark after a count is the largest of the one before and the finalized ids. -/
theorem le_watermark_after_iff {x : Int} :
    x ≤ (l.after stages).watermark.val ↔
      x ≤ l.watermark.val ∨ ∃ s ∈ stages, s.isFinalized = true ∧ x ≤ s.id.val := by
  refine (le_foldl_later_iff le_rfl).trans (or_congr_right ?_)
  simp only [List.mem_filter, and_assoc]

private theorem find?_foldl_insert {xs : List Stage} {m : SortedMap Signed64 Metrics}
    (hxs : (xs.map (·.id)).Nodup) (id : Signed64) :
    (xs.foldl (fun m s => m.insert s.id s.metrics) m).find? id =
      ((xs.find? (·.id == id)).map (·.metrics)).or (m.find? id) := by
  induction xs generalizing m with
  | nil => simp
  | cons s xs ih =>
    rw [List.map_cons, List.nodup_cons] at hxs
    rw [List.foldl_cons, ih hxs.2, SortedMap.find?_insert]
    by_cases h : s.id = id
    · subst h
      have hnone : xs.find? (·.id == s.id) = none := by
        refine List.find?_eq_none.2 fun t ht heq => hxs.1 ?_
        rw [← (beq_iff_eq.1 heq)]
        exact List.mem_map_of_mem ht
      simp [hnone]
    · rw [if_neg h, List.find?_cons_of_neg (by simpa using h)]

/-- After a count the active stages are those that are not finalized, with their metrics. -/
theorem find?_active_after (hids : (stages.map (·.id)).Nodup) {id : Signed64} {m : Metrics} :
    (l.after stages).active.find? id = some m ↔
      ∃ s ∈ stages, s.id = id ∧ s.isFinalized = false ∧ s.metrics = m := by
  have hsub : ((stages.filter (!·.isFinalized)).map (·.id)).Nodup :=
    hids.sublist (List.filter_sublist.map _)
  have hfind := find?_foldl_insert (m := .empty) hsub id
  rw [SortedMap.find?_empty, Option.or_none] at hfind
  change (List.foldl _ _ _ : SortedMap Signed64 Metrics).find? id = some m ↔ _
  rw [hfind, Option.map_eq_some_iff]
  constructor
  · rintro ⟨s, hs, rfl⟩
    have hmem := List.mem_filter.1 (List.mem_of_find?_eq_some hs)
    exact ⟨s, hmem.1, by simpa using List.find?_some hs, by simpa using hmem.2, rfl⟩
  · rintro ⟨s, hs, rfl, hactive, rfl⟩
    have hmem : s ∈ stages.filter (!·.isFinalized) := List.mem_filter.2 ⟨hs, by simp [hactive]⟩
    obtain ⟨t, ht⟩ : ∃ t, (stages.filter (!·.isFinalized)).find? (·.id == s.id) = some t := by
      rw [← Option.isSome_iff_exists, List.find?_isSome]
      exact ⟨s, hmem, by simp⟩
    have hid : t.id = s.id := by simpa using List.find?_some ht
    have : t = s := List.inj_on_of_nodup_map hsub (List.mem_of_find?_eq_some ht) hmem hid
    exact ⟨t, ht, by rw [this]⟩

end SparkLedger.Ledger

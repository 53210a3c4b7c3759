import SparkLedger.Proofs.Stage.Bounds

/-!
# Stages that are never counted

The watermark of a ledger jumps to the largest finalized id of a window, over all ids in between,
and a stage that it has jumped over is not counted any more once it is finalized. An error is
logged if the first stage behind the old watermark is missing. So a stage is lost in silence only
if the window that the watermark jumps in lists that first stage and still leaves out a later one:
only if the window has a hole.

* `Window.Hole`: a window lists stages on both sides of an id, and not the stage itself.
* `Ledger.counted_or_logged_or_hole`: what a window that the watermark jumps in does.
* `Ledger.lost_silently_only_in_holes`: no stage is lost in silence over windows without holes.
* `Ledger.stage_in_hole_is_lost`: a stage that is lost in silence.
-/

namespace SparkLedger

/-- The window lists a stage with a smaller id and a finalized one with a larger id, but not the
stage of this id. -/
def Window.Hole (w : Window) (id : Signed64) : Prop :=
  id ∉ w.ids ∧ (∃ s ∈ w, s.id.val < id.val) ∧ ∃ s ∈ w, s.isFinalized = true ∧ id.val < s.id.val

instance (w : Window) (id : Signed64) : Decidable (w.Hole id) :=
  inferInstanceAs (Decidable (_ ∧ _))

namespace Ledger

/-- Whether windows, counted one after the other, have an entry of a stage that is not skipped. -/
def countsAll (l : Ledger) (id : Signed64) : List Window → Bool
  | [] => false
  | w :: ws =>
    w.latest.any (fun s => s.id == id && !l.skips s) || (l.after w.latest).countsAll id ws

/-- The lines of the counts of windows, one after the other. -/
def linesAll (l : Ledger) : List Window → List Log.Line
  | [] => []
  | w :: ws => l.aggregateLines w ++ (l.after w.latest).linesAll ws

variable {l : Ledger} {w : Window} {ws : List Window} {s : Stage} {id : Signed64}

theorem countsAll_concat (l : Ledger) (id : Signed64) (ws : List Window) (w : Window) :
    l.countsAll id (ws ++ [w]) =
      (l.countsAll id ws || w.latest.any fun s => s.id == id && !(l.afterAll ws).skips s) := by
  induction ws generalizing l with
  | nil => simp [countsAll]
  | cons v ws ih => rw [List.cons_append, countsAll, ih, countsAll, afterAll_cons, Bool.or_assoc]

theorem linesAll_concat (l : Ledger) (ws : List Window) (w : Window) :
    l.linesAll (ws ++ [w]) = l.linesAll ws ++ (l.afterAll ws).aggregateLines w := by
  induction ws generalizing l with
  | nil => simp [linesAll]
  | cons v ws ih => rw [List.cons_append, linesAll, ih, linesAll, afterAll_cons, List.append_assoc]

/-! ## One window -/

/-- A stage was lost if the window is past the watermark and does not list the first stage behind
it. -/
theorem isSome_gap_iff {gap : Option Signed64} (h : l.gap? w.latest = .ok gap) :
    gap.isSome = true ↔
      (∃ s ∈ w.latest, s.isFinalized = true ∧ l.watermark.val < s.id.val) ∧
        ∀ s ∈ w.latest, s.id.val ≠ l.watermark.val + 1 := by
  obtain ⟨expected, hexpected, h⟩ := Checked.bind_eq_ok_iff.1 h
  have hval : expected.val = l.watermark.val + 1 := Signed64.add_eq_ok_iff.1 hexpected
  have hid (s : Stage) : s.id = expected ↔ s.id.val = l.watermark.val + 1 := by
    rw [Ranged.ext_iff, hval]
  cases h
  rw [Option.isSome_ite]
  simp [hid]

/-- The lines of a count have an error if a stage was lost. -/
theorem exists_error_iff {gap : Option Signed64} (h : l.gap? w.latest = .ok gap) :
    (∃ line ∈ l.aggregateLines w, line.level = .error) ↔ gap.isSome = true := by
  rw [aggregateLines, h]
  cases gap with
  | none => simp [foldLine]
  | some id => simp [gapLine]

/-- A stage that is behind the watermark is not skipped. -/
theorem skips_eq_false (h : l.watermark.val < s.id.val) : l.skips s = false := by
  rw [Bool.eq_false_iff]
  intro hskip
  have hle := (skips_iff.1 hskip).2.1
  omega

/-- A stage that the watermark jumps over, or to, is counted, unless an error is logged or the
window has a hole there. -/
theorem counted_or_logged_or_hole (hs : s ∈ w.latest) (hfinal : s.isFinalized = true)
    (hlt : l.watermark.val < id.val) (hle : id.val ≤ s.id.val) :
    (w.latest.any fun t => t.id == id && !l.skips t) = true ∨
      (∃ line ∈ l.aggregateLines w, line.level = .error) ∨ w.Hole id := by
  by_cases hid : id ∈ w.ids
  · obtain ⟨t, ht, rfl⟩ := Window.exists_mem_latest_of_mem_ids hid
    exact .inl (List.any_eq_true.2 ⟨t, ht, by simp [skips_eq_false hlt]⟩)
  · refine .inr ?_
    have hne : ∀ t ∈ w.latest, t.id.val ≠ id.val := by
      intro t ht heq
      exact hid (Ranged.ext heq ▸ Window.mem_ids_of_mem_latest ht)
    have hmax := id.le_hi
    obtain ⟨gap, hgap⟩ : ∃ gap, l.gap? w.latest = .ok gap := exists_gap_iff.2 (by omega)
    rw [exists_error_iff hgap, isSome_gap_iff hgap]
    by_cases hlisted : ∃ t ∈ w.latest, t.id.val = l.watermark.val + 1
    · -- The first stage behind the watermark is listed, so it is not the one that is missing.
      obtain ⟨t, ht, htid⟩ := hlisted
      have hbefore : t.id.val < id.val := by
        have := hne t ht
        omega
      have hafter : id.val < s.id.val := by
        have := hne s hs
        omega
      exact .inr ⟨hid, ⟨t, Window.mem_of_mem_latest ht, hbefore⟩,
        s, Window.mem_of_mem_latest hs, hfinal, hafter⟩
    · exact .inl ⟨⟨s, hs, hfinal, by omega⟩, fun t ht heq => hlisted ⟨t, ht, heq⟩⟩

/-! ## All windows -/

/-- Every stage up to the watermark was counted, unless an error was logged or a window had a hole
there. -/
theorem counted_or_logged_or_hole_of_le_watermark (hnonneg : 0 ≤ id.val)
    (hle : id.val ≤ (empty.afterAll ws).watermark.val) :
    empty.countsAll id ws = true ∨ (∃ line ∈ empty.linesAll ws, line.level = .error) ∨
      ∃ w ∈ ws, w.Hole id := by
  induction ws using List.reverseRecOn with
  | nil =>
    change id.val ≤ -1 at hle
    omega
  | append_singleton ws w ih =>
    rw [countsAll_concat, linesAll_concat, Bool.or_eq_true]
    simp only [List.mem_append, or_and_right, exists_or, List.mem_singleton, exists_eq_left]
    by_cases hbefore : id.val ≤ (empty.afterAll ws).watermark.val
    · rcases ih hbefore with hcounted | hlogged | hhole
      · exact .inl (.inl hcounted)
      · exact .inr (.inl (.inl hlogged))
      · exact .inr (.inr (.inl hhole))
    · rw [afterAll_append, afterAll_cons, afterAll_nil] at hle
      rcases le_watermark_after_iff.1 hle with hle | ⟨s, hs, hfinal, hle⟩
      · exact absurd hle hbefore
      · have hlt : (empty.afterAll ws).watermark.val < id.val := by omega
        rcases counted_or_logged_or_hole hs hfinal hlt hle with hcounted | hlogged | hhole
        · exact .inl (.inr hcounted)
        · exact .inr (.inl (.inr hlogged))
        · exact .inr (.inr (.inr hhole))

/-- The lines of windows have an error exactly if one of their counts lost a stage. -/
theorem exists_error_linesAll_iff {counts : List Aggregation} (h : l.aggregateAll ws = .ok counts) :
    (∃ line ∈ l.linesAll ws, line.level = .error) ↔ ∃ a ∈ counts, a.gap.isSome = true := by
  induction ws generalizing l counts with
  | nil =>
    cases h
    simp [linesAll]
  | cons w ws ih =>
    obtain ⟨a, ha, h⟩ := Checked.bind_eq_ok_iff.1 h
    obtain ⟨rest, hrest, h⟩ := Checked.bind_eq_ok_iff.1 h
    cases h
    rw [(aggregate_eq_ok ha).1] at hrest
    obtain ⟨gap, hgap, ha⟩ := Checked.bind_eq_ok_iff.1 ha
    obtain ⟨advance, -, ha⟩ := Checked.bind_eq_ok_iff.1 ha
    cases ha
    simp only [linesAll, List.mem_append, or_and_right, exists_or, List.mem_cons, exists_eq_left,
      exists_error_iff hgap, ih hrest]

/-- A stage that a window lists is counted with it or was counted before, unless an error has been
logged or an earlier window had a hole at its id; and an error is logged exactly if a count that
succeeds says which stage it lost. So no stage is lost in silence over windows without holes. -/
theorem lost_silently_only_in_holes (hids : ∀ v ∈ ws ++ [w], ∀ s ∈ v, 0 ≤ s.id.val)
    (hs : s ∈ w.latest) :
    (empty.countsAll s.id (ws ++ [w]) = true ∨
      (∃ line ∈ empty.linesAll ws, line.level = .error) ∨ ∃ v ∈ ws, v.Hole s.id) ∧
    ∀ counts, empty.aggregateAll ws = .ok counts →
      ((∃ line ∈ empty.linesAll ws, line.level = .error) ↔ ∃ a ∈ counts, a.gap.isSome = true) := by
  refine ⟨?_, fun counts hcounts => exists_error_linesAll_iff hcounts⟩
  rw [countsAll_concat, Bool.or_eq_true]
  by_cases hskip : (empty.afterAll ws).skips s = true
  · have hle := (skips_iff.1 hskip).2.1
    have hnonneg := hids w (by simp) s (Window.mem_of_mem_latest hs)
    exact (counted_or_logged_or_hole_of_le_watermark hnonneg hle).imp_left .inl
  · exact .inl (.inr (List.any_eq_true.2 ⟨s, hs, by simp [hskip]⟩))

/-- Two polls: stages 1 and 2 are missing from the second, which lists stage 3 as finalized. -/
def overtakingPolls : List Window :=
  let entry (id amount : Signed64) (status : Stage.Status) : Stage :=
    ⟨status, id, 0, "", 0, amount, amount, 0⟩
  let n (i : Fin 8) : Signed64 := ⟨i, by omega, by omega⟩
  [[entry (n 1) (n 2) .active, entry 0 (n 4) .complete],
    [entry (n 4) 0 .pending, entry (n 3) (n 5) .skipped]]

/-- A poll after them: stage 2 is listed for the first time, and has ended. -/
def overtakenPoll : Window :=
  let n (i : Fin 8) : Signed64 := ⟨i, by omega, by omega⟩
  [⟨.failed, n 2, 0, "", 0, n 7, n 7, 0⟩]

theorem lost_silently_only_in_holes_overtakenPoll :
    (∀ v ∈ overtakingPolls ++ [overtakenPoll], ∀ s ∈ v, 0 ≤ s.id.val) ∧
      ∃ s ∈ overtakenPoll.latest, s.isFinalized = true ∧
        empty.countsAll s.id (overtakingPolls ++ [overtakenPoll]) = false ∧
        (∀ v ∈ overtakingPolls, ¬v.Hole s.id) ∧
        ∃ line ∈ empty.linesAll overtakingPolls, line.level = .error := by
  have hids : ∀ v ∈ overtakingPolls ++ [overtakenPoll], ∀ s ∈ v, 0 ≤ s.id.val := by decide +kernel
  obtain ⟨s, hs, hfinal, hcounts, hholes⟩ : ∃ s ∈ overtakenPoll.latest, s.isFinalized = true ∧
      empty.countsAll s.id (overtakingPolls ++ [overtakenPoll]) = false ∧
      ∀ v ∈ overtakingPolls, ¬v.Hole s.id := by decide +kernel
  refine ⟨hids, s, hs, hfinal, hcounts, hholes, ?_⟩
  rcases (lost_silently_only_in_holes hids hs).1 with hcounted | hlogged | ⟨v, hv, hhole⟩
  · rw [hcounts] at hcounted
    cases hcounted
  · exact hlogged
  · exact absurd hhole (hholes v hv)

/-- Two polls: the first lists stages 0 and 2, the second stage 1. All have ended. -/
def holedPolls : List Window :=
  let n (i : Fin 8) : Signed64 := ⟨i, by omega, by omega⟩
  let entry (id amount : Signed64) : Stage := ⟨.complete, id, 0, "", 0, amount, amount, 0⟩
  [[entry 0 (n 1), entry (n 2) (n 2)], [entry (n 1) (n 4)]]

/-- A stage that is listed only after the watermark has jumped over it in a hole is never counted,
and no error is logged. -/
theorem stage_in_hole_is_lost :
    (∀ w ∈ holedPolls, ∀ s ∈ w, 0 ≤ s.id.val ∧ s.attempt = 0) ∧
      (∃ w ∈ holedPolls, ∃ s ∈ w.latest, s.isFinalized = true ∧
        empty.countsAll s.id holedPolls = false) ∧
      (∃ counts, empty.aggregateAll holedPolls = .ok counts) ∧
      ∀ line ∈ empty.linesAll holedPolls, line.level ≠ .error :=
  ⟨by decide +kernel, by decide +kernel, ⟨_, rfl⟩, by decide +kernel⟩

end Ledger

end SparkLedger

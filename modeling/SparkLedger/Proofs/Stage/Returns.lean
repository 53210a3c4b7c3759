import SparkLedger.Proofs.Stage.Balance

/-!
# Stages that return

A stage that is active may be missing from a poll and be listed again. The ledger has its active
stages from the last window only, so what it has counted of such a stage is forgotten, and is
counted once more when the stage returns. Over windows whose stages only grow nothing else is
counted twice.

* `Growing`: windows whose stages only grow; they may be missing in between.
* `excess_le_forgotten`: an entry has too much only if its stage returns.
* `totals_le_worth_add_forgotten`: the totals are at most what the stages are worth, and what was
  forgotten of those that return.
* `returning_stage_counts_twice`: a stage that misses one window.
-/

namespace SparkLedger.Windows

open Stage (Amounts)
open Application (Statistics)

variable {ws : List Window} {w : Window} {s t : Stage}

/-- Windows whose stages only grow, from one window that lists them to the next. -/
structure Growing (ws : List Window) : Prop where
  id_nonneg : ∀ w ∈ ws, ∀ s ∈ w, 0 ≤ s.id.val
  metrics_nonneg : ∀ w ∈ ws, ∀ s ∈ w, 0 ≤ s.metrics.amounts
  grows : ws.Pairwise fun w w' => ∀ s ∈ w.latest, ∀ s' ∈ w'.latest, s'.id = s.id →
    s.metrics.amounts ≤ s'.metrics.amounts
  /-- A stage that is finalized is never active again. -/
  ended : ws.Pairwise fun w w' => ∀ s ∈ w.latest, s.isFinalized = true →
    ∀ s' ∈ w'.latest, s'.id = s.id → s'.isFinalized = true

/-- Whether an entry of the next window is of a stage that was active when it was last listed, and
that the last window has not listed. -/
def returns (ws : List Window) (s : Stage) : Bool :=
  (lastAttempt? ws s.id).any (!·.isFinalized) && ws.getLast?.all (s.id ∉ ·.ids)

/-- What was counted of a stage before it was missing from a window. -/
def forgotten (ws : List Window) (s : Stage) : Amounts :=
  if returns ws s then value ws s.id else 0

/-- No stage is missing from a window while it is active, and listed again. -/
def Unbroken (ws : List Window) : Prop :=
  ∀ (i : Nat) (hi : i < ws.length), ∀ s ∈ ws[i].latest, returns (ws.take i) s = false

/-! ## What is counted twice -/

theorem Growing.of_isPrefix {vs : List Window} (h : Growing ws) (hvs : vs <+: ws) : Growing vs where
  id_nonneg w hw := h.id_nonneg w (hvs.subset hw)
  metrics_nonneg w hw := h.metrics_nonneg w (hvs.subset hw)
  grows := h.grows.sublist hvs.sublist
  ended := h.ended.sublist hvs.sublist

theorem Growing.value_nonneg (h : Growing ws) (id : Signed64) : 0 ≤ value ws id := by
  rw [value]
  cases hlast : lastAttempt? ws id with
  | none => exact le_rfl
  | some t =>
    obtain ⟨before, v, later, rfl, ht, -, -⟩ := lastAttempt?_eq_some hlast
    exact h.metrics_nonneg v (by simp) t (Window.mem_of_mem_latest ht)

theorem forgotten_nonneg (h : Growing ws) (s : Stage) : 0 ≤ forgotten ws s := by
  rw [forgotten]
  split
  · exact h.value_nonneg s.id
  · exact le_rfl

/-- A stage that was last listed as active returns, unless the ledger has it as active. -/
theorem returns_of_not_active (hlast : lastAttempt? ws s.id = some t)
    (hactive : t.isFinalized = false)
    (hfind : (Ledger.empty.afterAll ws).active.find? s.id = none) : returns ws s = true := by
  rcases List.eq_nil_or_concat' ws with rfl | ⟨ws, v, rfl⟩
  · cases hlast
  · have hmissing : s.id ∉ v.ids := by
      intro hid
      obtain ⟨u, hu, hid⟩ := Window.exists_mem_latest_of_mem_ids hid
      have hlatest := Window.latestAttempt?_eq_some_iff.2 ⟨hu, hid⟩
      have hsame : u = t := by
        rw [lastAttempt?_concat, hlatest] at hlast
        exact Option.some.inj hlast
      subst hsame
      rw [find?_active_concat.2 ⟨u, hlatest, hactive, rfl⟩] at hfind
      cases hfind
    simp [returns, hlast, hactive, hmissing]

section

variable (h : Growing (ws ++ [w])) (hs : s ∈ w.latest)
include h hs

/-- A stage that was finalized is settled, and has at least what it had. -/
private theorem excess_nonpos_of_finalized (hlast : lastAttempt? ws s.id = some t)
    (hfinal : t.isFinalized = true)
    (hfind : (Ledger.empty.afterAll ws).active.find? s.id = none) : excess ws s ≤ 0 := by
  obtain ⟨before, v, later, hws, ht, hid, -⟩ := lastAttempt?_eq_some hlast
  have hv : v ∈ ws := by simp [hws]
  have hgrows := (List.pairwise_append.1 h.grows).2.2 v hv w (by simp) t ht s hs hid.symm
  have hended := (List.pairwise_append.1 h.ended).2.2 v hv w (by simp) t ht hfinal s hs hid.symm
  have hskip : (Ledger.empty.afterAll ws).skips s = true :=
    Ledger.skips_iff.2 ⟨hended, le_watermark_of_lastAttempt? hlast hfinal, hfind⟩
  rw [excess_of_not_active hfind, if_pos hskip, value, hlast]
  exact sub_nonpos_of_le hgrows

/-- An entry has too much only if its stage returns. -/
theorem excess_le_forgotten : excess ws s ≤ forgotten ws s := by
  have hprefix := h.of_isPrefix (List.prefix_append ws [w])
  cases hfind : (Ledger.empty.afterAll ws).active.find? s.id with
  | some m =>
    rw [excess_of_active hfind]
    exact forgotten_nonneg hprefix s
  | none =>
    have hle : excess ws s ≤ value ws s.id := by
      rw [excess_of_not_active hfind]
      refine sub_le_self _ ?_
      split
      · exact h.metrics_nonneg w (by simp) s (Window.mem_of_mem_latest hs)
      · exact le_rfl
    cases hlast : lastAttempt? ws s.id with
    | none =>
      refine hle.trans ?_
      rw [value, hlast]
      exact forgotten_nonneg hprefix s
    | some t =>
      cases hfinal : t.isFinalized with
      | true =>
        exact (excess_nonpos_of_finalized h hs hlast hfinal hfind).trans
          (forgotten_nonneg hprefix s)
      | false => rwa [forgotten, if_pos (returns_of_not_active hlast hfinal hfind)]

end

/-! ## Totals -/

theorem Growing.entrySum_excess_le (h : Growing ws) :
    entrySum excess [] ws ≤ entrySum forgotten [] ws :=
  entrySum_induct le_rfl add_le_add fun _ _ hv _ hs =>
    excess_le_forgotten (h.of_isPrefix hv) hs

/-- Nothing is forgotten of stages that do not return. -/
theorem Unbroken.entrySum_forgotten (h : Unbroken ws) : entrySum forgotten [] ws = 0 := by
  refine entrySum_eq_zero fun before w hw s hs => if_neg ?_
  rw [of_isPrefix (p := fun before w => ∀ s ∈ w.latest, returns before s = false) h hw s hs]
  exact Bool.false_ne_true

/-- Over windows whose stages only grow, the totals are at most what the stages are worth, each in
the last window that lists it, and what was forgotten of those that return; in exact arithmetic,
and in checked arithmetic wherever that succeeds. If no stage is missing while it is active and
listed again, nothing is forgotten. -/
theorem totals_le_worth_add_forgotten (h : Growing ws) (hne : ws ≠ []) (st : Statistics) :
    (Update.exactRun st.totals.amounts ws).1 ≤ worth ws + entrySum forgotten [] ws ∧
    (∀ r, Update.run st ws = .ok r →
      r.1.totals.amounts ≤ worth ws + entrySum forgotten [] ws) ∧
    (Unbroken ws → entrySum forgotten [] ws = 0) := by
  have hexact : (Update.exactRun st.totals.amounts ws).1 ≤
      worth ws + entrySum forgotten [] ws := by
    rw [exactRun_eq h.id_nonneg hne, gainedAll_eq_add_excess]
    exact add_le_add_right h.entrySum_excess_le _
  refine ⟨hexact, fun r hr => ?_, Unbroken.entrySum_forgotten⟩
  rwa [← Update.eq_exactRun hr] at hexact

/-- Three polls: stage 1 is finalized, missing, and listed again, while stage 0 goes on. -/
def alternatingPolls : List Window :=
  let entry (id amount : Signed64) (status : Stage.Status) : Stage :=
    ⟨status, id, 0, "", 0, amount, amount, 0⟩
  let n (i : Fin 9) : Signed64 := ⟨i, by omega, by omega⟩
  [[entry (n 1) (n 3) .complete, entry 0 (n 5) .active], [entry 0 (n 6) .unknown],
    [entry (n 2) 0 .pending, entry 0 (n 8) .complete, entry (n 1) (n 3) .complete]]

theorem totals_le_worth_add_forgotten_alternatingPolls :
    Growing alternatingPolls ∧ Unbroken alternatingPolls ∧
      ∃ r, Update.run .zero alternatingPolls = .ok r ∧
        r.1.totals.amounts ≤ worth alternatingPolls ∧ r.1.totals.amounts .input = 11 := by
  have h : Growing alternatingPolls :=
    ⟨by decide +kernel, by decide +kernel, by decide +kernel, by decide +kernel⟩
  have hunbroken : Unbroken alternatingPolls := by
    unfold Unbroken
    decide +kernel
  obtain ⟨r, hr⟩ : ∃ r, Update.run .zero alternatingPolls = .ok r := ⟨_, rfl⟩
  obtain ⟨-, hrun, hzero⟩ := totals_le_worth_add_forgotten h (List.cons_ne_nil _ _) .zero
  refine ⟨h, hunbroken, r, hr, ?_, ?_⟩
  · have hle := hrun r hr
    rwa [hzero hunbroken, add_zero] at hle
  · cases hr
    decide +kernel

/-- Three polls: stage 0 is active all the time, and missing from the second. -/
def returningPolls : List Window :=
  let entry (amount : Signed64) : Stage := ⟨.active, 0, 0, "", 0, amount, amount, 0⟩
  let n (i : Fin 9) : Signed64 := ⟨i, by omega, by omega⟩
  [[entry (n 5)], [], [entry (n 5)]]

/-- A stage that misses a window is counted in full when it returns. -/
theorem returning_stage_counts_twice :
    Growing returningPolls ∧ (∀ w ∈ returningPolls, ∀ s ∈ w, s.attempt = 0) ∧
      ∃ r, Update.run .zero returningPolls = .ok r ∧
        r.1.totals.amounts .input = 10 ∧ worth returningPolls .input = 5 := by
  have h : Growing returningPolls :=
    ⟨by decide +kernel, by decide +kernel, by decide +kernel, by decide +kernel⟩
  exact ⟨h, by decide +kernel, _, rfl, by decide +kernel, by decide +kernel⟩

end SparkLedger.Windows

import SparkLedger.Proofs.Stage.Coverage

/-!
# When a run overflows

Over moderate windows nothing overflows but the totals, and those only upwards. What a window adds
may be negative, on the way as well as in the end, but no more is ever taken from the totals than
the ledger has of active stages, and the totals cover that.

* `Update.apply_eq_error_iff`: an update fails exactly if a total leaves the range.
* `Update.moderate_exactRun`, `Update.exactRun_nonneg`: moderate windows leave moderate ledgers,
  and totals that are not negative.
* `Update.exists_compute_of_run`: one window more, at any point of a run.
* `Update.overflows_only_above`: where a run fails, and where it does not.
-/

namespace SparkLedger

open Stage (Amounts)
open Application (Statistics)

theorem Signed64.eq_add_of_add_eq_error {a b : Signed64} {e : Overflow} (h : a.add b = .error e) :
    e = .add := by
  unfold Signed64.add at h
  split at h <;> cases h
  rfl

/-- Some amount is above the range of 64-bit numbers. -/
def Stage.Amounts.Exceeds (x : Amounts) : Prop := ∃ c, 9223372036854775807 < x c

theorem Stage.Amounts.exceeds_iff_of_nonneg {x : Amounts} (h : 0 ≤ x) : x.Exceeds ↔ ¬x.Fits := by
  rw [Exceeds, Fits, not_forall]
  refine exists_congr fun c => ?_
  have hc : 0 ≤ x c := h c
  omega

namespace Update

variable {s s' st : Statistics} {u : Update} {e : Overflow} {w : Window} {ws vs : List Window}
  {r : Statistics × Option Ledger}

/-! ## One update -/

theorem amounts_of_apply (h : u.apply s = .ok s') :
    s'.totals.amounts = u.exactApply s.totals.amounts := by
  cases u with
  | full totals l => rw [(apply_full_eq_ok h).1, exactApply]
  | incremental delta l => exact (apply_incremental_eq_ok h).1

private theorem eq_add_of_apply_eq_error (h : u.apply s = .error e) : e = .add := by
  cases u with
  | full totals l => cases h
  | incremental delta l =>
    rw [apply] at h
    cases hi : s.totalInputBytes.add delta.inputBytes with
    | error e' =>
      rw [hi] at h
      cases h
      exact Signed64.eq_add_of_add_eq_error hi
    | ok i =>
      cases ho : s.totalOutputBytes.add delta.outputBytes with
      | error e' =>
        rw [hi, ho] at h
        cases h
        exact Signed64.eq_add_of_add_eq_error ho
      | ok o =>
        cases hc : s.totalCpuTime.add delta.cpuTime with
        | error e' =>
          rw [hi, ho, hc] at h
          cases h
          exact Signed64.eq_add_of_add_eq_error hc
        | ok c =>
          rw [hi, ho, hc] at h
          cases h

/-- An update fails exactly if the exact totals are not 64-bit numbers, and then by an addition. -/
theorem apply_eq_error_iff :
    u.apply s = .error e ↔ e = .add ∧ ¬(u.exactApply s.totals.amounts).Fits := by
  constructor
  · intro h
    refine ⟨eq_add_of_apply_eq_error h, fun hfits => ?_⟩
    obtain ⟨s', hs⟩ := exists_apply hfits
    cases h.symm.trans hs
  · rintro ⟨rfl, hfits⟩
    cases h : u.apply s with
    | error e => rw [eq_add_of_apply_eq_error h]
    | ok s' => exact absurd (amounts_of_apply h ▸ s'.totals.fits) hfits

/-! ## A run -/

theorem moderate_exactRun (hws : ∀ w ∈ ws, w.Moderate) (totals : Amounts) :
    ∀ l, (exactRun totals ws).2 = some l → l.Moderate := by
  induction ws using List.reverseRecOn with
  | nil => exact fun _ h => (nomatch h)
  | append_singleton ws w ih =>
    intro l hl
    rw [exactRun_concat] at hl
    cases hl
    have hw := hws w (by simp)
    cases hrec : (exactRun totals ws).2 with
    | none => exact Ledger.moderate_empty.after hw
    | some l => exact (ih (fun v hv => hws v (List.mem_append_left _ hv)) l hrec).after hw

theorem exactRun_nonneg (hws : ∀ w ∈ ws, w.Moderate) (hne : ws ≠ []) (totals : Amounts) :
    0 ≤ (exactRun totals ws).1 := by
  have hcovers := covers_exactRun (fun w hw => (hws w hw).metrics_nonneg) totals
  obtain ⟨l, hl⟩ := exists_exactRun_eq totals hne
  exact (Ledger.activeSum_nonneg (hcovers.active_nonneg l hl)).trans (hcovers.activeSum_le l hl)

/-- At any point of a run the next window is counted without overflow, and the totals fail to take
what it adds only if they come above the range. -/
theorem exists_compute_of_run (hws : ∀ v ∈ ws ++ [w], v.Moderate) (hr : run st ws = .ok r) :
    ∃ u, compute w r.2 = .ok u ∧
      u.exactApply r.1.totals.amounts = (exactRun st.totals.amounts (ws ++ [w])).1 ∧
      ∀ e, u.apply r.1 = .error e ↔
        e = .add ∧ (exactRun st.totals.amounts (ws ++ [w])).1.Exceeds := by
  have hexact := eq_exactRun hr
  have hmoderate := moderate_exactRun (fun v hv => hws v (List.mem_append_left _ hv))
    st.totals.amounts
  rw [← hexact] at hmoderate
  obtain ⟨u, hu⟩ := exists_compute hmoderate (hws w (by simp))
  have htotals : u.exactApply r.1.totals.amounts =
      (exactRun st.totals.amounts (ws ++ [w])).1 := by
    rw [exactApply_eq hu, exactRun_concat, ← hexact]
    rfl
  refine ⟨u, hu, htotals, fun e => ?_⟩
  have hnonneg := exactRun_nonneg hws (by simp) st.totals.amounts
  rw [apply_eq_error_iff, htotals, Amounts.exceeds_iff_of_nonneg hnonneg]

/-- A run fails before its last window or in it. -/
theorem run_concat_eq_error_iff :
    run st (ws ++ [w]) = .error e ↔
      run st ws = .error e ∨ ∃ r, run st ws = .ok r ∧ step r w = .error e := by
  rw [run, List.foldlM_append, ← run]
  cases run st ws with
  | error e' => simp [bind, Except.bind]
  | ok r => cases hr : step r w <;> simp [bind, Except.bind, pure, Except.pure, hr]

theorem step_eq_error_iff (hu : compute w r.2 = .ok u) :
    step r w = .error e ↔ u.apply r.1 = .error e := by
  rw [step, hu]
  cases h : u.apply r.1 <;> simp [bind, Except.bind, pure, Except.pure, h]

/-- A run over moderate windows fails exactly if its exact totals come above the range after some
window. -/
theorem run_eq_error_iff (hws : ∀ v ∈ ws, v.Moderate) :
    run st ws = .error e ↔
      e = .add ∧ ∃ vs, vs <+: ws ∧ vs ≠ [] ∧ (exactRun st.totals.amounts vs).1.Exceeds := by
  induction ws using List.reverseRecOn generalizing e with
  | nil =>
    constructor
    · exact nofun
    · rintro ⟨-, vs, hvs, hne, -⟩
      exact absurd (List.prefix_nil.1 hvs) hne
  | append_singleton ws w ih =>
    have ih {e : Overflow} := @ih e fun v hv => hws v (List.mem_append_left _ hv)
    rw [run_concat_eq_error_iff]
    constructor
    · rintro (h | ⟨r, hr, hstep⟩)
      · obtain ⟨he, vs, hvs, h⟩ := ih.1 h
        exact ⟨he, vs, hvs.trans (List.prefix_append ..), h⟩
      · obtain ⟨u, hu, -, happly⟩ := exists_compute_of_run hws hr
        obtain ⟨he, h⟩ := (happly e).1 ((step_eq_error_iff hu).1 hstep)
        exact ⟨he, ws ++ [w], List.prefix_rfl, by simp, h⟩
    · rintro ⟨rfl, vs, hvs, hne, h⟩
      rcases List.prefix_concat_iff.1 hvs with rfl | hvs
      · -- If the run has come to its last window, it fails there, and by an addition before.
        cases hr : run st ws with
        | error e => exact .inl (by rw [(ih.1 hr).1])
        | ok r =>
          obtain ⟨u, hu, -, happly⟩ := exists_compute_of_run hws hr
          exact .inr ⟨r, rfl, (step_eq_error_iff hu).2 ((happly .add).2 ⟨rfl, h⟩)⟩
      · exact .inl (ih.2 ⟨rfl, vs, hvs, hne, h⟩)

/-- Over moderate windows every count of a run succeeds: no sum on the way leaves the range. The
totals fail to take what a count adds only if they would come above the range, never below it;
the exact totals are not negative after any window. So the run succeeds as long as the exact totals
stay in range. -/
theorem overflows_only_above (hws : ∀ v ∈ ws, v.Moderate) (st : Statistics) :
    (∀ vs w, vs ++ [w] <+: ws → ∀ r, run st vs = .ok r →
      ∃ u, compute w r.2 = .ok u ∧
        u.exactApply r.1.totals.amounts = (exactRun st.totals.amounts (vs ++ [w])).1 ∧
        ∀ e, u.apply r.1 = .error e ↔
          e = .add ∧ (exactRun st.totals.amounts (vs ++ [w])).1.Exceeds) ∧
    (∀ vs, vs <+: ws → vs ≠ [] → 0 ≤ (exactRun st.totals.amounts vs).1) ∧
    ∀ e, run st ws = .error e ↔
      e = .add ∧ ∃ vs, vs <+: ws ∧ vs ≠ [] ∧ (exactRun st.totals.amounts vs).1.Exceeds := by
  have hmod {vs : List Window} (hvs : vs <+: ws) : ∀ v ∈ vs, v.Moderate :=
    fun v hv => hws v (hvs.subset hv)
  refine ⟨fun vs w hvs r hr => ?_, fun vs hvs hne => ?_, fun e => run_eq_error_iff hws⟩
  · exact exists_compute_of_run (hmod hvs) hr
  · exact exactRun_nonneg (hmod hvs) hne _

/-- Three polls: stage 0 has all that a counter can hold and loses it again in the poll that lists
stage 1 with as much, so that a sum on the way is as negative as can be. What stage 2 has then is
too much. -/
def fullPolls : List Window :=
  let most : Signed64 := ⟨9223372036854775807, by decide, by decide⟩
  let entry (id amount : Signed64) (status : Stage.Status) : Stage :=
    ⟨status, id, 0, "", 0, amount, 0, amount⟩
  let n (i : Fin 6) : Signed64 := ⟨i, by omega, by omega⟩
  [[entry 0 most .active], [entry (n 1) most .active, entry 0 0 .complete],
    [entry (n 2) (n 5) .pending]]

theorem overflows_only_above_fullPolls :
    (∀ w ∈ fullPolls, w.Moderate) ∧
      (∃ r, run .zero (fullPolls.take 2) = .ok r ∧
        r.1.totals.amounts .input = 9223372036854775807) ∧
      run .zero fullPolls = .error .add ∧
      (exactRun 0 fullPolls).1 .input = 9223372036854775812 := by
  have hmoderate : ∀ w ∈ fullPolls, w.Moderate := by
    have hsum : ∀ w ∈ fullPolls, ∀ c ∈ [Stage.Counter.output, .input, .cpu],
        (w.latest.map (·.metrics.amounts)).sum c ≤ 9223372036854775807 := by decide +kernel
    have hid : ∀ w ∈ fullPolls, ∀ s ∈ w, s.id.val < 9223372036854775807 := by decide +kernel
    have hnonneg : ∀ w ∈ fullPolls, ∀ s ∈ w, 0 ≤ s.metrics.amounts := by decide +kernel
    refine fun w hw => ⟨hid w hw, hnonneg w hw, fun c => ?_⟩
    cases c <;> exact hsum w hw _ (by decide)
  have hexact : (exactRun 0 fullPolls).1 .input = 9223372036854775812 := by decide +kernel
  refine ⟨hmoderate, ⟨_, rfl, by decide +kernel⟩, ?_, hexact⟩
  refine ((overflows_only_above hmoderate .zero).2.2 .add).2 ⟨rfl, fullPolls, List.prefix_rfl, ?_⟩
  exact ⟨List.cons_ne_nil _ _, .input, hexact ▸ by decide⟩

end Update

end SparkLedger

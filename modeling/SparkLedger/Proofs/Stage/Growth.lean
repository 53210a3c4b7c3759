import SparkLedger.Proofs.Stage.Coverage

/-!
# Stages that only grow

A window may take something off the totals: a stage that was not finalized can come back with less,
or be retried with less. Nothing else can. What a count takes off is what the ledger has of active
stages, and after a run that is what its last window lists as not finalized. So as long as such
stages have no less in the next window that lists them, the totals never fall.

* `Window.GrowsInto`: what is asked of two windows in a row.
* `Ledger.gained_nonneg_after`: then no stage of the second takes anything off.
* `Update.exactRun_le_concat`, `Update.exactRun_le_of_prefix`: one window more, and many.
* `Update.totals_never_decrease`: the deltas and the totals of a run.
-/

namespace SparkLedger

open Stage (Metrics Amounts)
open Application (Statistics)

/-- What the first window lists as not finalized has no less in the second, where it is listed. -/
def Window.GrowsInto (w w' : Window) : Prop :=
  ∀ s ∈ w.latest, s.isFinalized = false → ∀ s' ∈ w'.latest, s'.id = s.id →
    s.metrics.amounts ≤ s'.metrics.amounts

instance (w w' : Window) : Decidable (w.GrowsInto w') :=
  inferInstanceAs (Decidable (∀ s ∈ w.latest, s.isFinalized = false → ∀ s' ∈ w'.latest,
    s'.id = s.id → s.metrics.amounts ≤ s'.metrics.amounts))

namespace Ledger

variable {l : Ledger} {w w' : Window} {s : Stage}

theorem gained_nonneg (h : (l.counted s).amounts ≤ s.metrics.amounts) : 0 ≤ l.gained s := by
  unfold gained
  split
  · exact le_rfl
  · exact sub_nonneg.2 h

/-- The ledger after a window has no more of a stage than the next window, if stages grow. -/
theorem counted_after_le (hw : ∀ s ∈ w', 0 ≤ s.metrics.amounts) (hgrow : w.GrowsInto w')
    (hs : s ∈ w'.latest) : ((l.after w.latest).counted s).amounts ≤ s.metrics.amounts := by
  rw [counted_eq]
  cases hfind : (l.after w.latest).active.find? s.id with
  | none =>
    rw [Option.getD_none, Metrics.amounts_zero]
    exact hw s (Window.mem_of_mem_latest hs)
  | some m =>
    obtain ⟨t, ht, hid, hopen, rfl⟩ := (find?_active_after (Window.nodup_map_id_latest w)).1 hfind
    exact hgrow t ht hopen s hs hid.symm

theorem gained_nonneg_after (hw : ∀ s ∈ w', 0 ≤ s.metrics.amounts) (hgrow : w.GrowsInto w') :
    0 ≤ (w'.latest.map (l.after w.latest).gained).sum :=
  List.sum_nonneg <| List.forall_mem_map.2 fun _ hs =>
    gained_nonneg (counted_after_le hw hgrow hs)

end Ledger

namespace Update

variable {ws vs us : List Window} {w : Window} {totals : Amounts}

/-- What the last window of a run adds, if there was one before. -/
theorem gained_nonneg_of_run (hw : ∀ s ∈ w, 0 ≤ s.metrics.amounts)
    (hgrow : (vs ++ [w]).IsChain Window.GrowsInto) {l : Ledger}
    (hl : (exactRun totals vs).2 = some l) : 0 ≤ (w.latest.map l.gained).sum := by
  rcases List.eq_nil_or_concat' vs with rfl | ⟨vs, v, rfl⟩
  · cases hl
  · rw [exactRun_concat] at hl
    cases hl
    rw [List.append_assoc] at hgrow
    exact Ledger.gained_nonneg_after hw (List.isChain_append_cons_cons.1 hgrow).2.1

/-- The window seen first sets the totals, so it may only follow totals of zero. -/
theorem exactRun_le_concat (hw : ∀ s ∈ w, 0 ≤ s.metrics.amounts)
    (hgrow : (vs ++ [w]).IsChain Window.GrowsInto) (hzero : vs = [] → totals = 0) :
    (exactRun totals vs).1 ≤ (exactRun totals (vs ++ [w])).1 := by
  rw [exactRun_concat, exactStep]
  cases hrecorded : (exactRun totals vs).2 with
  | none =>
    have hnil : vs = [] := by
      by_contra hne
      obtain ⟨l, hl⟩ := exists_exactRun_eq totals hne
      cases hrecorded.symm.trans hl
    subst hnil
    change totals ≤ (w.latest.map (·.metrics.amounts)).sum
    rw [hzero rfl]
    exact List.sum_nonneg <| List.forall_mem_map.2 fun s hs =>
      hw s (Window.mem_of_mem_latest hs)
  | some l => exact le_add_of_nonneg_right (gained_nonneg_of_run hw hgrow hrecorded)

theorem exactRun_le_of_prefix (hus : ∀ w ∈ us, ∀ s ∈ w, 0 ≤ s.metrics.amounts)
    (hgrow : us.IsChain Window.GrowsInto) (hvs : vs <+: us) (hzero : vs = [] → totals = 0) :
    (exactRun totals vs).1 ≤ (exactRun totals us).1 := by
  obtain ⟨rest, rfl⟩ := hvs
  induction rest using List.reverseRecOn with
  | nil => rw [List.append_nil]
  | append_singleton rest w ih =>
    rw [← List.append_assoc] at hus hgrow ⊢
    have hbefore := ih (fun v hv => hus v (List.mem_append_left _ hv)) hgrow.left_of_append
    refine hbefore.trans (exactRun_le_concat (hus w (by simp)) hgrow fun hnil => ?_)
    exact hzero (List.append_eq_nil_iff.1 hnil).1

/-- Where no counter is negative and stages that are not finalized only grow from one window to the
next, no delta is negative in any counter, and the totals never fall: in exact arithmetic, and in
checked arithmetic wherever that succeeds. What the totals were before the first window does not
matter for the windows after it; if they were zero then they do not fall with the first one
either. -/
theorem totals_never_decrease (hws : ∀ w ∈ ws, ∀ s ∈ w, 0 ≤ s.metrics.amounts)
    (hgrow : ws.IsChain Window.GrowsInto) (st : Statistics) :
    (∀ vs w, vs ++ [w] <+: ws → ∀ r, run st vs = .ok r →
      ∀ delta l, compute w r.2 = .ok (.incremental delta l) → 0 ≤ delta.amounts) ∧
    ∀ vs us, vs <+: us → us <+: ws → (vs = [] → st.totals = 0) →
      (exactRun st.totals.amounts vs).1 ≤ (exactRun st.totals.amounts us).1 ∧
      ∀ r r', run st vs = .ok r → run st us = .ok r' →
        r.1.totals.amounts ≤ r'.1.totals.amounts := by
  have hchain {vs : List Window} (hvs : vs <+: ws) : vs.IsChain Window.GrowsInto :=
    List.IsChain.prefix hgrow hvs
  refine ⟨fun vs w hvs r hr delta l hcompute => ?_, fun vs us hvs hus hzero => ?_⟩
  · have hexact := congrArg Prod.snd (eq_exactRun hr)
    cases hrecorded : r.2 with
    | none =>
      rw [hrecorded] at hcompute
      obtain ⟨totals, hfull, -⟩ := compute_none_eq_ok hcompute
      cases hfull
    | some recorded =>
      rw [hrecorded] at hcompute
      obtain ⟨_, hdelta, hamounts⟩ := compute_some_eq_ok hcompute
      cases hdelta
      rw [hamounts]
      exact gained_nonneg_of_run (hws w (hvs.subset (by simp))) (hchain hvs)
        (hexact.symm.trans hrecorded)
  · have hle : (exactRun st.totals.amounts vs).1 ≤ (exactRun st.totals.amounts us).1 :=
      exactRun_le_of_prefix (fun w hw => hws w (hus.subset hw)) (hchain hus) hvs fun hnil => by
        rw [hzero hnil, Metrics.amounts_zero]
    refine ⟨hle, fun r r' hr hr' => ?_⟩
    rwa [← eq_exactRun hr, ← eq_exactRun hr'] at hle

/-- Four polls out of order. Stage 2 is retried with more, is left out once and ends with less than
it had; stage 5 has ended when it is seen first, and stage 1 is lost; stage 0 is not seen again. -/
def growingPolls : List Window :=
  let n (i : Fin 18) : Signed64 := ⟨i, by omega, by omega⟩
  let entry (id attempt amount : Signed64) (status : Stage.Status) : Stage :=
    ⟨status, id, attempt, "", 0, amount, amount, amount⟩
  [[entry (n 2) 0 (n 4) .active, entry 0 0 (n 3) .complete],
    [entry (n 5) 0 (n 6) .complete, entry (n 2) (n 1) (n 7) .pending, entry (n 2) 0 (n 9) .failed],
    [entry (n 4) 0 (n 1) .active],
    [entry (n 4) 0 (n 1) .complete, entry (n 2) (n 1) (n 5) .complete]]

theorem totals_never_decrease_growingPolls :
    (∀ w ∈ growingPolls, ∀ s ∈ w, 0 ≤ s.metrics.amounts) ∧
      growingPolls.IsChain Window.GrowsInto ∧
      ∃ r r', run .zero (growingPolls.take 2) = .ok r ∧ run .zero growingPolls = .ok r' ∧
        r.1.totals.amounts .input = 16 ∧ r'.1.totals.amounts .input = 17 ∧
        r.1.totals.amounts ≤ r'.1.totals.amounts := by
  have hnonneg : ∀ w ∈ growingPolls, ∀ s ∈ w, 0 ≤ s.metrics.amounts := by decide +kernel
  have hgrow : growingPolls.IsChain Window.GrowsInto := by decide +kernel
  obtain ⟨r, hr⟩ : ∃ r, run .zero (growingPolls.take 2) = .ok r := ⟨_, rfl⟩
  obtain ⟨r', hr'⟩ : ∃ r', run .zero growingPolls = .ok r' := ⟨_, rfl⟩
  have hle := ((totals_never_decrease hnonneg hgrow .zero).2 (growingPolls.take 2) growingPolls
    (List.take_prefix ..) List.prefix_rfl (fun _ => rfl)).2 r r' hr hr'
  refine ⟨hnonneg, hgrow, r, r', hr, hr', ?_, ?_, hle⟩
  · cases hr
    decide +kernel
  · cases hr'
    decide +kernel

end Update

end SparkLedger

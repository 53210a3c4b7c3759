import SparkLedger.Proofs.Stage.Balance

/-!
# Retried stages

Over windows that nothing leaves, the totals are the sum of the last window and what ended
attempts leave behind. An attempt leaves something only if a window lists it as ended while it is
still the latest: the ledger takes its stage for settled then, and does not take back what it has
counted once the next attempt is listed.

* `Retained`: windows that nothing leaves; `Retried`: and how stages are retried in them.
* `excess_eq_leftover`: what an entry has too much is what the attempt before it leaves.
* `totals_eq_last_add_leftover`: the totals, and that nothing is left if every retry is listed as
  soon as the attempt before it has ended.
* `late_retry_counts_twice`: a retry that is listed one window later.
-/

namespace SparkLedger.Windows

open Stage (Amounts)
open Application (Statistics)

variable {ws : List Window} {w : Window} {s t : Stage}

/-- Windows that nothing leaves. -/
structure Retained (ws : List Window) : Prop where
  id_nonneg : ∀ w ∈ ws, ∀ s ∈ w, 0 ≤ s.id.val
  /-- What is listed stays listed. -/
  kept : ws.Pairwise fun w w' => ∀ s ∈ w, ∃ s' ∈ w', s'.id = s.id ∧ s'.attempt = s.attempt
  /-- An attempt that is finalized stays as it is. -/
  frozen : ws.Pairwise fun w w' => ∀ s ∈ w, s.isFinalized = true → ∀ s' ∈ w',
    s'.id = s.id → s'.attempt = s.attempt → s'.status = s.status ∧ s'.metrics = s.metrics
  /-- A new stage has a larger id than those that were listed. -/
  new_above : ws.Pairwise fun w w' => ∀ s' ∈ w', s'.id ∉ w.ids → ∀ s ∈ w, s.id.val < s'.id.val

/-- Windows that nothing leaves, whose stages are retried one attempt after the other. -/
structure Retried (ws : List Window) : Prop extends Retained ws where
  /-- A new attempt has a larger number than those that were listed. -/
  retry_later : ws.Pairwise fun w w' => ∀ s' ∈ w',
    (∀ s ∈ w, s.id = s'.id → s.attempt ≠ s'.attempt) →
      ∀ s ∈ w, s.id = s'.id → s.attempt.val < s'.attempt.val
  /-- It is listed beside ended attempts only. -/
  retry_ended : ∀ w ∈ ws, ∀ s ∈ w, ∀ s' ∈ w,
    s'.id = s.id → s.attempt.val < s'.attempt.val → s.isFinalized = true

/-- Every retry is listed as soon as the attempt before it has ended: no window lists an attempt
as finalized and latest that is retried later. -/
def RetriedAtOnce (ws : List Window) : Prop :=
  ∀ (i : Nat) (hi : i < ws.length), ∀ s ∈ ws[i].latest, ∀ t ∈ lastAttempt? (ws.take i) s.id,
    t.isFinalized = true → t.attempt = s.attempt

/-- What an ended attempt leaves in the totals once a retry is listed: all it has while the retry
is on its way, and what it has beyond the retry if that has ended too. -/
def leftover (ws : List Window) (s : Stage) : Amounts :=
  (lastAttempt? ws s.id).elim 0 fun t =>
    if t.isFinalized = true ∧ t.attempt ≠ s.attempt then
      t.metrics.amounts - if s.isFinalized then s.metrics.amounts else 0
    else 0

/-! ## What attempts leave behind -/

theorem Retained.of_isPrefix {vs : List Window} (h : Retained ws) (hvs : vs <+: ws) :
    Retained vs where
  id_nonneg w hw := h.id_nonneg w (hvs.subset hw)
  kept := h.kept.sublist hvs.sublist
  frozen := h.frozen.sublist hvs.sublist
  new_above := h.new_above.sublist hvs.sublist

/-- Every stage that was listed is listed last by the last window. -/
theorem Retained.lastAttempt?_concat (h : Retained (ws ++ [w])) (id : Signed64) :
    lastAttempt? (ws ++ [w]) id = w.latestAttempt? id := by
  rw [Windows.lastAttempt?_concat]
  cases hlatest : w.latestAttempt? id with
  | some s => rfl
  | none =>
    rw [Option.none_or, lastAttempt?_eq_none_iff]
    intro v hv hid
    obtain ⟨s, hs, rfl⟩ := Window.mem_ids_iff.1 hid
    obtain ⟨s', hs', hid', -⟩ := (List.pairwise_append.1 h.kept).2.2 v hv w (by simp) s hs
    exact Window.latestAttempt?_eq_none_iff.1 hlatest (Window.mem_ids_iff.2 ⟨s', hs', hid'⟩)

section

variable (h : Retained (ws ++ [w])) (hs : s ∈ w.latest)
include h hs

/-- A stage that was never listed is not behind the watermark. -/
private theorem skips_eq_false_of_new (hnone : lastAttempt? ws s.id = none) :
    (Ledger.empty.afterAll ws).skips s = false := by
  refine Bool.eq_false_iff.2 fun hskip => ?_
  obtain ⟨-, hle, -⟩ := Ledger.skips_iff.1 hskip
  have hmem := Window.mem_of_mem_latest hs
  rcases Ledger.le_watermark_afterAll_iff.1 hle with hle | ⟨v, hv, u, hu, -, hle⟩
  · have hnonneg := h.id_nonneg w (by simp) s hmem
    change s.id.val ≤ -1 at hle
    omega
  · have habove := (List.pairwise_append.1 h.new_above).2.2 v hv w (by simp) s hmem
      (lastAttempt?_eq_none_iff.1 hnone v hv) u (Window.mem_of_mem_latest hu)
    omega

/-- An attempt that has ended is listed again as it was. -/
private theorem frozen_of_lastAttempt? (hlast : lastAttempt? ws s.id = some t)
    (hfinal : t.isFinalized = true) (hattempt : t.attempt = s.attempt) :
    s.isFinalized = true ∧ s.metrics = t.metrics := by
  obtain ⟨before, v, later, rfl, ht, hid, -⟩ := lastAttempt?_eq_some hlast
  obtain ⟨hstatus, hmetrics⟩ := (List.pairwise_append.1 h.frozen).2.2 v (by simp) w (by simp)
    t (Window.mem_of_mem_latest ht) hfinal s (Window.mem_of_mem_latest hs) hid.symm hattempt.symm
  exact ⟨by rw [Stage.isFinalized, hstatus]; exact hfinal, hmetrics⟩

/-- What an entry has too much is what the attempt before it leaves behind. -/
theorem excess_eq_leftover : excess ws s = leftover ws s := by
  rw [leftover]
  cases hfind : (Ledger.empty.afterAll ws).active.find? s.id with
  | some m =>
    obtain ⟨t, hlast, hactive, -⟩ := exists_lastAttempt?_of_active hfind
    simp [excess_of_active hfind, hlast, hactive]
  | none =>
    rw [excess_of_not_active hfind]
    cases hlast : lastAttempt? ws s.id with
    | none => simp [value, hlast, skips_eq_false_of_new h hs hlast]
    | some t =>
      have hfinal : t.isFinalized = true := by
        rcases List.eq_nil_or_concat' ws with rfl | ⟨vs, v, rfl⟩
        · cases hlast
        · -- The last window lists the stage, so it would be active otherwise.
          refine Bool.of_not_eq_false fun hactive => ?_
          rw [(h.of_isPrefix (List.prefix_append _ _)).lastAttempt?_concat] at hlast
          rw [find?_active_concat.2 ⟨t, hlast, hactive, rfl⟩] at hfind
          cases hfind
      have hskip : (Ledger.empty.afterAll ws).skips s = s.isFinalized := by
        rw [Bool.eq_iff_iff, Ledger.skips_iff]
        exact and_iff_left ⟨le_watermark_of_lastAttempt? hlast hfinal, hfind⟩
      by_cases hattempt : t.attempt = s.attempt
      · obtain ⟨hsfinal, hmetrics⟩ := frozen_of_lastAttempt? h hs hlast hfinal hattempt
        simp [value, hlast, hskip, hattempt, hsfinal, hmetrics]
      · simp [value, hlast, hskip, hattempt, hfinal]

end

/-! ## Totals -/

theorem Retained.entrySum_excess (h : Retained ws) :
    entrySum excess [] ws = entrySum leftover [] ws := by
  refine entrySum_induct rfl (fun hab hcd => congrArg₂ _ hab hcd) fun before v hv s hs => ?_
  exact excess_eq_leftover (h.of_isPrefix hv) hs

/-- What the stages are worth is in the last window. -/
theorem Retained.worth_concat (h : Retained (ws ++ [w])) :
    worth (ws ++ [w]) = (w.latest.map (·.metrics.amounts)).sum := by
  have hids : ids (ws ++ [w]) = w.ids := by
    rw [ids_concat, Finset.union_eq_right]
    intro id hid
    obtain ⟨v, hv, hid⟩ := mem_ids_iff.1 hid
    obtain ⟨s, hs, rfl⟩ := Window.mem_ids_iff.1 hid
    obtain ⟨s', hs', hid', -⟩ := (List.pairwise_append.1 h.kept).2.2 v hv w (by simp) s hs
    exact Window.mem_ids_iff.2 ⟨s', hs', hid'⟩
  rw [worth, hids, Window.sum_latest]
  refine Finset.sum_congr rfl fun id _ => ?_
  rw [value, h.lastAttempt?_concat]

/-- Nothing is left where every retry is listed at once. -/
theorem RetriedAtOnce.entrySum_leftover (h : RetriedAtOnce ws) :
    entrySum leftover [] ws = 0 := by
  refine entrySum_eq_zero fun before w hw s hs => ?_
  rw [leftover]
  cases hlast : lastAttempt? before s.id with
  | none => rfl
  | some t =>
    have hsame : t.isFinalized = true → t.attempt = s.attempt :=
      of_isPrefix (p := fun before w => ∀ s ∈ w.latest, ∀ t ∈ lastAttempt? before s.id,
        t.isFinalized = true → t.attempt = s.attempt) h hw s hs t hlast
    exact if_neg fun ⟨hfinal, hne⟩ => hne (hsame hfinal)

/-- Over windows that nothing leaves, the totals are the sum of the last window and what ended
attempts leave behind, in exact arithmetic and in checked arithmetic wherever that succeeds.
Nothing is left if every retry is listed as soon as the attempt before it has ended: then the
totals do not depend on the windows before the last. -/
theorem totals_eq_last_add_leftover (h : Retained ws) (hlast : ws.getLast? = some w)
    (st : Statistics) :
    (Update.exactRun st.totals.amounts ws).1 =
        (w.latest.map (·.metrics.amounts)).sum + entrySum leftover [] ws ∧
    (∀ r totals, Update.run st ws = .ok r → w.total = .ok totals →
      r.1.totals.amounts = totals.amounts + entrySum leftover [] ws) ∧
    (RetriedAtOnce ws → entrySum leftover [] ws = 0) := by
  obtain ⟨earlier, rfl⟩ := List.getLast?_eq_some_iff.1 hlast
  have hexact : (Update.exactRun st.totals.amounts (earlier ++ [w])).1 =
      (w.latest.map (·.metrics.amounts)).sum + entrySum leftover [] (earlier ++ [w]) := by
    rw [exactRun_eq h.id_nonneg (by simp), gainedAll_eq_add_excess, h.worth_concat,
      h.entrySum_excess]
  refine ⟨hexact, fun r totals hr htotals => ?_, RetriedAtOnce.entrySum_leftover⟩
  rw [Window.amounts_of_total htotals, ← hexact, ← Update.eq_exactRun hr]

/-- Three polls: stage 0 is listed as failed only when it is retried, and so is its retry. -/
def promptRetryPolls : List Window :=
  let entry (id attempt amount : Signed64) (status : Stage.Status) : Stage :=
    ⟨status, id, attempt, "", 0, amount, amount, 0⟩
  let n (i : Fin 13) : Signed64 := ⟨i, by omega, by omega⟩
  [[entry 0 0 (n 10) .active],
    [entry 0 0 (n 12) .failed, entry 0 (n 1) (n 3) .pending, entry (n 2) 0 (n 6) .complete],
    [entry (n 2) 0 (n 6) .complete, entry 0 0 (n 12) .failed, entry 0 (n 2) (n 5) .active,
      entry 0 (n 1) (n 7) .failed]]

theorem totals_eq_last_add_leftover_promptRetryPolls :
    Retained promptRetryPolls ∧ RetriedAtOnce promptRetryPolls ∧
      ∃ w r totals, promptRetryPolls.getLast? = some w ∧
        Update.run .zero promptRetryPolls = .ok r ∧ w.total = .ok totals ∧
        r.1.totals.amounts = totals.amounts ∧ totals.amounts .input = 11 := by
  have h : Retained promptRetryPolls :=
    ⟨by decide +kernel, by decide +kernel, by decide +kernel, by decide +kernel⟩
  have honce : RetriedAtOnce promptRetryPolls := by
    unfold RetriedAtOnce
    decide +kernel
  obtain ⟨w, hw⟩ : ∃ w, promptRetryPolls.getLast? = some w := ⟨_, rfl⟩
  obtain ⟨r, hr⟩ : ∃ r, Update.run .zero promptRetryPolls = .ok r := ⟨_, rfl⟩
  obtain ⟨totals, htotals⟩ : ∃ totals, w.total = .ok totals := by
    cases hw
    exact ⟨_, rfl⟩
  obtain ⟨-, hrun, hleft⟩ := totals_eq_last_add_leftover h hw .zero
  refine ⟨h, honce, w, r, totals, hw, hr, htotals, ?_, ?_⟩
  · rw [hrun r totals hr htotals, hleft honce, add_zero]
  · cases hw
    cases htotals
    decide +kernel

/-- Two polls: stage 0 has failed, and is retried only when it is polled again. -/
def lateRetryPolls : List Window :=
  let entry (attempt amount : Signed64) (status : Stage.Status) : Stage :=
    ⟨status, 0, attempt, "", 0, amount, amount, 0⟩
  let n (i : Fin 13) : Signed64 := ⟨i, by omega, by omega⟩
  [[entry 0 (n 10) .failed], [entry 0 (n 10) .failed, entry (n 1) (n 3) .active]]

/-- A retry that is listed late is counted beside the attempt that it replaces. -/
theorem late_retry_counts_twice :
    Retried lateRetryPolls ∧
      ∃ w r totals, lateRetryPolls.getLast? = some w ∧
        Update.run .zero lateRetryPolls = .ok r ∧ w.total = .ok totals ∧
        r.1.totals.amounts .input = 13 ∧ totals.amounts .input = 3 := by
  have h : Retried lateRetryPolls :=
    ⟨⟨by decide +kernel, by decide +kernel, by decide +kernel, by decide +kernel⟩,
      by decide +kernel, by decide +kernel⟩
  exact ⟨h, _, _, _, rfl, rfl, rfl, by decide +kernel, by decide +kernel⟩

end SparkLedger.Windows

import Mathlib.Data.List.Chain
import SparkLedger.Proofs.Stage.Bounds

/-!
# Conservation of work

Over windows that slide along, the totals are what the listed stages last reported, every stage
once. The invariant is that for each stage the totals hold its entry in the last window that
lists it: the ledger has it as active if that entry is not finalized, and else its id is at or
below the watermark.

* `gained_eq`: what a stage gains is what its new entry has beyond the one that was last.
* `totals_conserved`: the totals after windows that slide along, and that moderate windows get
  there without overflow.
-/

namespace SparkLedger

open Stage (Amounts)
open Application (Statistics)

/-! ## What stages are worth -/

namespace Windows

/-- The entry of a stage in the last of the windows that lists it. -/
def lastAttempt? (ws : List Window) (id : Signed64) : Option Stage :=
  ws.reverse.findSome? (·.latestAttempt? id)

/-- The ids of the stages that any window lists. -/
def ids (ws : List Window) : Finset Signed64 := (ws.flatMap fun w => w.map (·.id)).toFinset

/-- What a stage has in the last of the windows that lists it. -/
def value (ws : List Window) (id : Signed64) : Amounts :=
  (lastAttempt? ws id).elim 0 (·.metrics.amounts)

/-- What all stages have, each in the last window that lists it. -/
def worth (ws : List Window) : Amounts := ∑ id ∈ ids ws, value ws id

/-- Windows of stages as they slide along: ids are not negative, a stage is listed until it is
finalized, it reports the same from then on, and a stage that is finalized when it is first seen
comes after all that were seen finalized. -/
structure Sliding (ws : List Window) : Prop where
  id_nonneg : ∀ w ∈ ws, ∀ s ∈ w, 0 ≤ s.id.val
  active_listed : ws.IsChain fun w w' => ∀ s ∈ w.latest, s.isFinalized = false → s.id ∈ w'.ids
  finalized_kept : ws.Pairwise fun w w' => ∀ s ∈ w.latest, s.isFinalized = true →
    ∀ s' ∈ w'.latest, s'.id = s.id → s'.isFinalized = true ∧ s'.metrics = s.metrics
  first_finalized_above : ∀ (i : Nat) (hi : i < ws.length), ∀ s ∈ ws[i].latest,
    s.isFinalized = true → (∀ v ∈ ws.take i, s.id ∉ v.ids) →
      ∀ v ∈ ws.take i, ∀ t ∈ v.latest, t.isFinalized = true → t.id.val < s.id.val

variable {ws : List Window} {w : Window} {s : Stage} {id : Signed64}

theorem lastAttempt?_concat (ws : List Window) (w : Window) (id : Signed64) :
    lastAttempt? (ws ++ [w]) id = (w.latestAttempt? id).or (lastAttempt? ws id) := by
  rw [lastAttempt?, List.reverse_append, List.reverse_singleton, List.singleton_append,
    List.findSome?_cons]
  cases w.latestAttempt? id <;> rfl

theorem lastAttempt?_eq_some (h : lastAttempt? ws id = some s) :
    ∃ earlier w later, ws = earlier ++ w :: later ∧ s ∈ w.latest ∧ s.id = id ∧
      ∀ v ∈ later, id ∉ v.ids := by
  obtain ⟨later, w, earlier, hws, hw, hlater⟩ := List.findSome?_eq_some_iff.1 h
  obtain ⟨hs, hid⟩ := Window.latestAttempt?_eq_some_iff.1 hw
  refine ⟨earlier.reverse, w, later.reverse, ?_, hs, hid, fun v hv => ?_⟩
  · rw [← List.reverse_reverse ws, hws]
    simp
  · exact Window.latestAttempt?_eq_none_iff.1 (hlater v (List.mem_reverse.1 hv))

theorem lastAttempt?_eq_none_iff : lastAttempt? ws id = none ↔ ∀ w ∈ ws, id ∉ w.ids := by
  rw [lastAttempt?, List.findSome?_eq_none_iff]
  simp only [List.mem_reverse, Window.latestAttempt?_eq_none_iff]

theorem mem_ids_iff : id ∈ ids ws ↔ ∃ w ∈ ws, id ∈ w.ids := by
  simp only [ids, List.mem_toFinset, List.mem_flatMap, List.mem_map, Window.mem_ids_iff]

theorem ids_concat (ws : List Window) (w : Window) : ids (ws ++ [w]) = ids ws ∪ w.ids := by
  ext id
  simp only [mem_ids_iff, Finset.mem_union, List.mem_append, List.mem_singleton]
  constructor
  · rintro ⟨v, hv | rfl, hid⟩
    · exact .inl ⟨v, hv, hid⟩
    · exact .inr hid
  · rintro (⟨v, hv, hid⟩ | hid)
    · exact ⟨v, .inl hv, hid⟩
    · exact ⟨w, .inr rfl, hid⟩

theorem value_eq_zero (h : id ∉ ids ws) : value ws id = 0 := by
  have : lastAttempt? ws id = none :=
    lastAttempt?_eq_none_iff.2 fun w hw hid => h (mem_ids_iff.2 ⟨w, hw, hid⟩)
  rw [value, this]
  rfl

theorem value_concat_of_mem_latest (hs : s ∈ w.latest) :
    value (ws ++ [w]) s.id = s.metrics.amounts := by
  rw [value, lastAttempt?_concat, Window.mem_latest_iff.1 hs]
  rfl

theorem value_concat_of_not_mem (h : id ∉ w.ids) : value (ws ++ [w]) id = value ws id := by
  rw [value, lastAttempt?_concat, Window.latestAttempt?_eq_none_iff.2 h]
  rfl

@[simp] theorem worth_nil : worth [] = 0 := rfl

/-- A window changes what the stages are worth by what its entries have beyond the last ones. -/
theorem worth_concat (ws : List Window) (w : Window) :
    worth (ws ++ [w]) =
      worth ws + (w.latest.map fun s => s.metrics.amounts - value ws s.id).sum := by
  have hold : worth ws = ∑ id ∈ ids ws ∪ w.ids, value ws id :=
    Finset.sum_subset Finset.subset_union_left fun _ _ hid => value_eq_zero hid
  have hnew : ∑ id ∈ ids ws ∪ w.ids, (value (ws ++ [w]) id - value ws id) =
      ∑ id ∈ w.ids, (value (ws ++ [w]) id - value ws id) := by
    refine (Finset.sum_subset Finset.subset_union_right fun id _ hid => ?_).symm
    rw [value_concat_of_not_mem hid, sub_self]
  rw [worth, ids_concat, hold, ← sub_eq_iff_eq_add', ← Finset.sum_sub_distrib, hnew,
    Window.sum_latest]
  refine Finset.sum_congr rfl fun id hid => ?_
  obtain ⟨s, hs, rfl⟩ := Window.exists_mem_latest_of_mem_ids hid
  rw [value_concat_of_mem_latest hs, Window.mem_latest_iff.1 hs]
  rfl

/-! ## What a window gains -/

theorem Sliding.of_concat (h : Sliding (ws ++ [w])) : Sliding ws where
  id_nonneg v hv := h.id_nonneg v (List.mem_append_left _ hv)
  active_listed := h.active_listed.left_of_append
  finalized_kept := (List.pairwise_append.1 h.finalized_kept).1
  first_finalized_above i hi := by
    have habove := h.first_finalized_above i (by simp; omega)
    rwa [List.getElem_append_left hi, List.take_append_of_le_length hi.le] at habove

variable (h : Sliding (ws ++ [w])) (hs : s ∈ w.latest)
include h hs

/-- A stage that was never listed is not behind the watermark. -/
private theorem gained_of_lastAttempt?_eq_none (hnone : lastAttempt? ws s.id = none) :
    (Ledger.empty.afterAll ws).gained s = s.metrics.amounts := by
  have hnew : ∀ v ∈ ws, s.id ∉ v.ids := lastAttempt?_eq_none_iff.1 hnone
  have hactive : (Ledger.empty.afterAll ws).active.find? s.id = none := by
    rcases List.eq_nil_or_concat' ws with rfl | ⟨ws', v, rfl⟩
    · rfl
    · refine Option.eq_none_iff_forall_ne_some.2 fun m hm => ?_
      obtain ⟨t, ht, hid, -, -⟩ := Ledger.find?_active_afterAll.1 hm
      exact hnew v (by simp) (hid ▸ Window.mem_ids_of_mem_latest ht)
  have hskip : (Ledger.empty.afterAll ws).skips s = false := by
    rw [Ledger.skips, Bool.and_eq_false_iff]
    by_cases hfin : s.isFinalized = true
    · refine .inr (Bool.eq_false_iff.2 fun hsettled => ?_)
      rcases Ledger.le_watermark_afterAll_iff.1 (Ledger.settled_iff.1 hsettled).1 with
        hle | ⟨v, hv, t, ht, htfin, hle⟩
      · have := h.id_nonneg w (by simp) s (Window.mem_of_mem_latest hs)
        change s.id.val ≤ -1 at hle
        omega
      · have habove := h.first_finalized_above ws.length (by simp)
        rw [List.getElem_concat_length rfl, List.take_left'  rfl] at habove
        have := habove s hs hfin hnew v hv t ht htfin
        omega
    · exact .inl (by simpa using hfin)
  rw [Ledger.gained, hskip, Ledger.counted_eq, hactive]
  simp

/-- A stage that was finalized is skipped, and reports what it did. -/
private theorem gained_of_finalized {t : Stage} (hlast : lastAttempt? ws s.id = some t)
    (hfin : t.isFinalized = true) :
    (Ledger.empty.afterAll ws).gained s = s.metrics.amounts - t.metrics.amounts := by
  obtain ⟨earlier, v, later, rfl, ht, hid, hlater⟩ := lastAttempt?_eq_some hlast
  obtain ⟨hsfin, hmetrics⟩ := (List.pairwise_append.1 h.finalized_kept).2.2 v (by simp) w (by simp)
    t ht hfin s hs hid.symm
  have hactive : (Ledger.empty.afterAll (earlier ++ v :: later)).active.find? s.id = none := by
    refine Option.eq_none_iff_forall_ne_some.2 fun m hm => ?_
    rcases List.eq_nil_or_concat' later with rfl | ⟨later', u, rfl⟩
    · obtain ⟨t', ht', hid', hact, -⟩ := Ledger.find?_active_afterAll.1 hm
      rw [Window.eq_of_mem_latest ht' ht (hid'.trans hid.symm), hfin] at hact
      exact Bool.noConfusion hact
    · rw [← List.cons_append, ← List.append_assoc] at hm
      obtain ⟨t', ht', hid', -, -⟩ := Ledger.find?_active_afterAll.1 hm
      exact hlater u (by simp) (hid' ▸ Window.mem_ids_of_mem_latest ht')
  have hskip : (Ledger.empty.afterAll (earlier ++ v :: later)).skips s = true := by
    rw [Ledger.skips, hsfin, Bool.true_and, Ledger.settled_iff]
    refine ⟨Ledger.le_watermark_afterAll_iff.2 (.inr ⟨v, by simp, t, ht, hfin, ?_⟩), hactive⟩
    rw [hid]
  rw [Ledger.gained, hskip, hmetrics]
  simp

omit hs in
/-- A stage that was not finalized is still listed, so the ledger has it as active. -/
private theorem gained_of_active {t : Stage} (hlast : lastAttempt? ws s.id = some t)
    (hact : t.isFinalized = false) :
    (Ledger.empty.afterAll ws).gained s = s.metrics.amounts - t.metrics.amounts := by
  obtain ⟨earlier, v, later, rfl, ht, hid, hlater⟩ := lastAttempt?_eq_some hlast
  have hend : later = [] := by
    cases later with
    | nil => rfl
    | cons u later =>
      have hlisted := (List.isChain_append_cons_cons.1 h.of_concat.active_listed).2.1 t ht hact
      exact absurd (hid ▸ hlisted) (hlater u List.mem_cons_self)
  subst hend
  have hfind : (Ledger.empty.afterAll (earlier ++ [v])).active.find? s.id = some t.metrics :=
    Ledger.find?_active_afterAll.2 ⟨t, ht, hid, hact, rfl⟩
  have hskip : (Ledger.empty.afterAll (earlier ++ [v])).skips s = false := by
    rw [Ledger.skips, Bool.and_eq_false_iff]
    refine .inr (Bool.eq_false_iff.2 fun hsettled => ?_)
    rw [(Ledger.settled_iff.1 hsettled).2] at hfind
    cases hfind
  rw [Ledger.gained, hskip, Ledger.counted_eq, hfind]
  simp

theorem gained_eq :
    (Ledger.empty.afterAll ws).gained s = s.metrics.amounts - value ws s.id := by
  cases hlast : lastAttempt? ws s.id with
  | none =>
    rw [gained_of_lastAttempt?_eq_none h hs hlast, value, hlast]
    simp
  | some t =>
    rw [value, hlast]
    cases hfin : t.isFinalized with
    | true => exact gained_of_finalized h hs hlast hfin
    | false => exact gained_of_active h hlast hfin

omit h hs

theorem gainedAll_eq_worth (h : Sliding ws) : Ledger.empty.gainedAll ws = worth ws := by
  induction ws using List.reverseRecOn with
  | nil => simp
  | append_singleton ws w ih =>
    rw [Ledger.gainedAll_concat, ih h.of_concat, worth_concat]
    congr 2
    exact List.map_congr_left fun s hs => gained_eq h hs

/-! ## Totals -/

theorem worth_singleton (w : Window) : worth [w] = (w.latest.map (·.metrics.amounts)).sum := by
  rw [← List.nil_append [w], worth_concat, worth_nil, zero_add]
  congr 1
  refine List.map_congr_left fun s _ => ?_
  rw [value_eq_zero (by simp [ids]), sub_zero]

/-- The totals of a run, and the ledger that it records. -/
theorem run_totals {st : Statistics} {r : Statistics × Option Ledger} (h : Sliding ws)
    (hr : Update.run st ws = .ok r) :
    r.1.totals.amounts = (if ws = [] then st.totals.amounts else worth ws) ∧
      r.2 = if ws = [] then none else some (Ledger.empty.afterAll ws) := by
  cases ws with
  | nil =>
    cases hr
    exact ⟨rfl, rfl⟩
  | cons w ws =>
    obtain ⟨htotals, hledger⟩ := Update.run_eq_ok hr
    -- Counted in full or into the empty ledger, the first window adds the same.
    have hgained : (w.latest.map Ledger.empty.gained).sum =
        (w.latest.map (·.metrics.amounts)).sum := by
      congr 1
      refine List.map_congr_left fun s hs => Ledger.gained_empty ?_
      exact h.id_nonneg w List.mem_cons_self s (Window.mem_of_mem_latest hs)
    rw [if_neg (List.cons_ne_nil w ws), if_neg (List.cons_ne_nil w ws), htotals, ← hgained,
      ← Ledger.gainedAll_cons, gainedAll_eq_worth h]
    exact ⟨rfl, hledger⟩

theorem moderate_afterAll (hmod : ∀ w ∈ ws, w.Moderate) :
    (Ledger.empty.afterAll ws).Moderate := by
  induction ws using List.reverseRecOn with
  | nil => exact Ledger.moderate_empty
  | append_singleton ws w ih =>
    rw [Ledger.afterAll_append, Ledger.afterAll_cons, Ledger.afterAll_nil]
    exact (ih fun v hv => hmod v (List.mem_append_left _ hv)).after (hmod w (by simp))

theorem exists_run (h : Sliding ws) (hmod : ∀ w ∈ ws, w.Moderate)
    (hfits : ∀ vs, vs <+: ws → (worth vs).Fits) (st : Statistics) :
    ∃ r, Update.run st ws = .ok r := by
  induction ws using List.reverseRecOn with
  | nil => exact ⟨_, rfl⟩
  | append_singleton ws w ih =>
    have hmod' : ∀ v ∈ ws, v.Moderate := fun v hv => hmod v (List.mem_append_left _ hv)
    obtain ⟨⟨st', recorded⟩, hr⟩ :=
      ih h.of_concat hmod' fun vs hvs => hfits vs (hvs.trans (List.prefix_append ..))
    obtain ⟨htotals, hledger⟩ := run_totals h.of_concat hr
    dsimp only at htotals hledger
    have hexact : Update.exactTotals st'.totals.amounts recorded w = worth (ws ++ [w]) := by
      by_cases hnil : ws = []
      · subst hnil
        rw [hledger, if_pos rfl, List.nil_append, worth_singleton]
        rfl
      · rw [hledger, if_neg hnil, Update.exactTotals, htotals, if_neg hnil,
          ← gainedAll_eq_worth h.of_concat, ← Ledger.gainedAll_concat, gainedAll_eq_worth h]
    have hmoderate : ∀ l, recorded = some l → l.Moderate := by
      intro l hl
      rw [hledger] at hl
      split at hl
      · cases hl
      · cases hl
        exact moderate_afterAll hmod'
    obtain ⟨r, hstep⟩ := Update.exists_step hmoderate (hmod w (by simp))
      (hexact ▸ hfits _ (List.prefix_refl _))
    refine ⟨r, ?_⟩
    rw [Update.run, List.foldlM_append]
    exact Checked.bind_eq_ok_iff.2
      ⟨_, hr, Checked.foldlM_cons_eq_ok_iff.2 ⟨r, hstep, rfl⟩⟩

/-- Over windows that slide along, the totals are what the listed stages have, each once and as
the last window that lists it reports it: the recorded totals, whatever they were before, and the
summed deltas of ledgers. Moderate windows are counted without overflow as long as that is in
range. -/
theorem totals_conserved (h : Sliding ws) (st : Statistics) :
    (∀ r, Update.run st ws = .ok r →
      r.1.totals.amounts = if ws = [] then st.totals.amounts else worth ws) ∧
    (∀ counts, Ledger.empty.aggregateAll ws = .ok counts →
      (counts.map (·.delta.amounts)).sum = worth ws) ∧
    ((∀ w ∈ ws, w.Moderate) →
      (∃ counts, Ledger.empty.aggregateAll ws = .ok counts) ∧
      ((∀ vs, vs <+: ws → (worth vs).Fits) → ∃ r, Update.run st ws = .ok r)) := by
  refine ⟨fun r hr => (run_totals h hr).1, fun counts hcounts => ?_, fun hmod => ⟨?_, ?_⟩⟩
  · rw [Ledger.aggregateAll_eq_ok hcounts, gainedAll_eq_worth h]
  · exact Ledger.exists_aggregateAll Ledger.moderate_empty hmod
  · exact fun hfits => exists_run h hmod hfits st

/-- Three polls: stage 1 is retried and ends after stage 2, stage 0 leaves the window, and stage 3
is finalized when it is first seen. -/
def latePolls : List Window :=
  let entry (id attempt amount : Signed64) (status : Stage.Status) : Stage :=
    ⟨status, id, attempt, "", 0, amount, 0, amount⟩
  let n (i : Fin 10) : Signed64 := ⟨i, by omega, by omega⟩
  [[entry (n 2) 0 (n 7) .complete, entry (n 1) 0 (n 9) .failed, entry (n 0) 0 (n 1) .complete,
      entry (n 1) (n 1) (n 5) .active],
    [entry (n 2) 0 (n 7) .complete, entry (n 1) (n 1) (n 8) .complete],
    [entry (n 3) 0 (n 2) .skipped, entry (n 2) 0 (n 7) .complete]]

theorem totals_conserved_latePolls :
    Sliding latePolls ∧ ∃ r, Update.run .zero latePolls = .ok r ∧
      r.1.totals.amounts = worth latePolls ∧ worth latePolls .input = 18 := by
  have h : Sliding latePolls :=
    ⟨by decide +kernel, by decide +kernel, by decide +kernel, by decide +kernel⟩
  obtain ⟨r, hr⟩ : ∃ r, Update.run .zero latePolls = .ok r := ⟨_, rfl⟩
  exact ⟨h, r, hr, (totals_conserved h .zero).1 r hr, by decide +kernel⟩

end Windows

end SparkLedger

import SparkLedger.Proofs.Stage.Conservation
import SparkLedger.Proofs.Stage.Coverage

/-!
# The balance of the totals

Whatever the windows are, the totals are what the stages are worth and an excess. An entry of a
window has an excess only where the ledger does not have its stage as active: there it takes the
stage for new, and counts it in full though it was counted before, or for settled, and leaves out
what the entry has beyond the last one.

* `excess`: what is counted too much for one entry; `gained_eq_add_excess` says so.
* `gainedAll_eq_add_excess`: the balance of a run.
* `exactRun_eq`: exact totals are the gains of the ledgers.
-/

namespace SparkLedger.Windows

open Stage (Metrics Amounts)

variable {ws : List Window} {w : Window} {s t : Stage} {id : Signed64}

/-! ## Sums over the entries -/

/-- The sum over the entries of windows, given the windows before each. -/
def entrySum (f : List Window → Stage → Amounts) (before : List Window) :
    List Window → Amounts
  | [] => 0
  | w :: ws => (w.latest.map (f before)).sum + entrySum f (before ++ [w]) ws

theorem entrySum_concat (f : List Window → Stage → Amounts) (before ws : List Window)
    (w : Window) :
    entrySum f before (ws ++ [w]) =
      entrySum f before ws + (w.latest.map (f (before ++ ws))).sum := by
  induction ws generalizing before with
  | nil => simp [entrySum]
  | cons v ws ih =>
    rw [List.cons_append, entrySum, ih, entrySum, List.append_assoc, List.singleton_append,
      add_assoc]

/-- Sums over the entries compare as the summands do. -/
theorem entrySum_induct {r : Amounts → Amounts → Prop} (hzero : r 0 0)
    (hadd : ∀ {a b c d}, r a b → r c d → r (a + c) (b + d)) {f g : List Window → Stage → Amounts}
    (h : ∀ before w, before ++ [w] <+: ws → ∀ s ∈ w.latest, r (f before s) (g before s)) :
    r (entrySum f [] ws) (entrySum g [] ws) := by
  induction ws using List.reverseRecOn with
  | nil => exact hzero
  | append_singleton ws w ih =>
    have hlast : ∀ xs ⊆ w.latest, r (xs.map (f ws)).sum (xs.map (g ws)).sum := by
      intro xs hxs
      induction xs with
      | nil => exact hzero
      | cons s xs ihxs =>
        rw [List.cons_subset] at hxs
        rw [List.map_cons, List.sum_cons, List.map_cons, List.sum_cons]
        exact hadd (h ws w (List.prefix_refl _) s hxs.1) (ihxs hxs.2)
    rw [entrySum_concat, entrySum_concat, List.nil_append]
    refine hadd (ih fun before v hv => ?_) (hlast _ (List.Subset.refl _))
    exact h before v (hv.trans (List.prefix_append _ _))

theorem entrySum_eq_zero {f : List Window → Stage → Amounts}
    (h : ∀ before w, before ++ [w] <+: ws → ∀ s ∈ w.latest, f before s = 0) :
    entrySum f [] ws = 0 := by
  have hzero (before ws : List Window) : entrySum (fun _ _ => 0) before ws = 0 := by
    induction ws generalizing before with
    | nil => rfl
    | cons w ws ih => simp [entrySum, ih]
  rw [← hzero [] ws]
  exact entrySum_induct rfl (fun hab hcd => congrArg₂ _ hab hcd) h

/-- What holds of every window and the windows before it holds at every prefix. -/
theorem of_isPrefix {p : List Window → Window → Prop}
    (h : ∀ (i : Nat) (hi : i < ws.length), p (ws.take i) ws[i]) {before : List Window}
    (hbefore : before ++ [w] <+: ws) : p before w := by
  obtain ⟨after, rfl⟩ := hbefore
  simpa using h before.length (by simp)

/-! ## What the ledger knows of a stage -/

/-- The ledger has a stage as active if the last window lists it so. -/
theorem find?_active_concat {m : Metrics} :
    (Ledger.empty.afterAll (ws ++ [w])).active.find? id = some m ↔
      ∃ s, w.latestAttempt? id = some s ∧ s.isFinalized = false ∧ s.metrics = m := by
  rw [Ledger.find?_active_afterAll]
  simp only [Window.latestAttempt?_eq_some_iff, and_assoc]

/-- What the ledger has as active is the last entry of its stage. -/
theorem exists_lastAttempt?_of_active {m : Metrics}
    (h : (Ledger.empty.afterAll ws).active.find? id = some m) :
    ∃ s, lastAttempt? ws id = some s ∧ s.isFinalized = false ∧ s.metrics = m := by
  rcases List.eq_nil_or_concat' ws with rfl | ⟨ws, v, rfl⟩
  · cases h
  · obtain ⟨s, hs, hactive, hm⟩ := find?_active_concat.1 h
    exact ⟨s, by rw [lastAttempt?_concat, hs]; rfl, hactive, hm⟩

/-- A stage that was last listed as finalized is not above the watermark. -/
theorem le_watermark_of_lastAttempt? (h : lastAttempt? ws id = some t)
    (hfinal : t.isFinalized = true) : id.val ≤ (Ledger.empty.afterAll ws).watermark.val := by
  obtain ⟨before, v, later, rfl, ht, rfl, -⟩ := lastAttempt?_eq_some h
  exact Ledger.le_watermark_afterAll_iff.2 (.inr ⟨v, by simp, t, ht, hfinal, le_rfl⟩)

/-! ## The balance -/

/-- What is counted too much for an entry of the next window: what was counted of its stage, if
the ledger does not know of it, less what the entry has, if the ledger takes it for settled. -/
def excess (ws : List Window) (s : Stage) : Amounts :=
  if (Ledger.empty.afterAll ws).active.contains s.id then 0
  else value ws s.id - if (Ledger.empty.afterAll ws).skips s then s.metrics.amounts else 0

theorem excess_of_active {m : Metrics}
    (h : (Ledger.empty.afterAll ws).active.find? s.id = some m) : excess ws s = 0 := by
  rw [excess, SortedMap.contains, h]
  exact if_pos rfl

theorem excess_of_not_active (h : (Ledger.empty.afterAll ws).active.find? s.id = none) :
    excess ws s =
      value ws s.id - if (Ledger.empty.afterAll ws).skips s then s.metrics.amounts else 0 := by
  rw [excess, SortedMap.contains, h]
  exact if_neg Bool.false_ne_true

theorem gained_eq_add_excess (ws : List Window) (s : Stage) :
    (Ledger.empty.afterAll ws).gained s =
      s.metrics.amounts - value ws s.id + excess ws s := by
  rw [Ledger.gained, Ledger.counted_eq]
  cases hfind : (Ledger.empty.afterAll ws).active.find? s.id with
  | none =>
    rw [excess_of_not_active hfind]
    split <;> simp
  | some m =>
    rw [excess_of_active hfind]
    obtain ⟨t, hlast, -, rfl⟩ := exists_lastAttempt?_of_active hfind
    have hskip : (Ledger.empty.afterAll ws).skips s ≠ true := by
      rw [Ne, Ledger.skips_iff, hfind]
      simp
    rw [if_neg hskip, value, hlast]
    simp

/-- The totals are what the stages are worth, and the excess of all entries. -/
theorem gainedAll_eq_add_excess (ws : List Window) :
    Ledger.empty.gainedAll ws = worth ws + entrySum excess [] ws := by
  induction ws using List.reverseRecOn with
  | nil => simp [entrySum]
  | append_singleton ws w ih =>
    have hgained : (w.latest.map (Ledger.empty.afterAll ws).gained).sum =
        (w.latest.map fun s => s.metrics.amounts - value ws s.id).sum +
          (w.latest.map (excess ws)).sum := by
      rw [← List.sum_map_add]
      congr 1
      exact List.map_congr_left fun s _ => gained_eq_add_excess ws s
    rw [Ledger.gainedAll_concat, ih, hgained, worth_concat, entrySum_concat, List.nil_append,
      add_add_add_comm]

/-- Where no id is negative, the exact totals of a run are what its windows add to a ledger that
has seen nothing. -/
theorem exactRun_eq (hids : ∀ w ∈ ws, ∀ s ∈ w, 0 ≤ s.id.val) (hne : ws ≠ []) (totals : Amounts) :
    Update.exactRun totals ws =
      (Ledger.empty.gainedAll ws, some (Ledger.empty.afterAll ws)) := by
  induction ws using List.reverseRecOn with
  | nil => exact absurd rfl hne
  | append_singleton ws w ih =>
    rw [Update.exactRun_concat, Ledger.gainedAll_concat, Ledger.afterAll_append]
    by_cases hnil : ws = []
    · subst hnil
      have hfirst : (w.latest.map (·.metrics.amounts)).sum =
          (w.latest.map Ledger.empty.gained).sum := by
        congr 1
        refine List.map_congr_left fun s hs => (Ledger.gained_empty ?_).symm
        exact hids w (by simp) s (Window.mem_of_mem_latest hs)
      simp [Update.exactRun, Update.exactStep, Update.exactTotals, hfirst]
    · rw [ih (fun v hv => hids v (List.mem_append_left _ hv)) hnil]
      rfl

end SparkLedger.Windows

import Mathlib.Algebra.BigOperators.Group.Finset.Basic
import Mathlib.Order.Bounds.Basic
import SparkLedger.Stage.Ledger

/-!
# The attempts that count

`Window.latest` as a map from stage ids: every listed stage has one entry, and a sum over the
latest attempts is a sum over the ids.

* `mem_latest_iff`: the latest attempts are the entries of the listed ids.
* `attempt_le_of_mem_latest`: no other attempt of a stage is later.
* `sum_latest`: a sum over the latest attempts, by id.
* `Counts`, `latest_is_exact`: which attempts these are, also of equal ones, and in which order.
-/

namespace SparkLedger.Window

variable {w : Window} {s : Stage} {id : Signed64}

/-- The attempt that counts of a stage. -/
def latestAttempt? (w : Window) (id : Signed64) : Option Stage := w.latest.find? (·.id == id)

/-- The ids of the stages that are listed. -/
def ids (w : Window) : Finset Signed64 := (w.map (·.id)).toFinset

theorem mem_ids_iff : id ∈ w.ids ↔ ∃ s ∈ w, s.id = id := by
  simp [ids]

private theorem find?_keepLatest (kept : SortedMap Signed64 Stage) (s : Stage) (id : Signed64) :
    (keepLatest kept s).find? id =
      if s.id = id ∧ (kept.find? id).all (·.attempt.val < s.attempt.val) then some s
      else kept.find? id := by
  by_cases h : s.id = id
  · subst h
    unfold keepLatest
    cases hseen : kept.find? s.id with
    | none => simp
    | some seen =>
      by_cases hle : s.attempt.val ≤ seen.attempt.val
      · have : ¬seen.attempt.val < s.attempt.val := by omega
        simp [hle, this, hseen]
      · have : seen.attempt.val < s.attempt.val := by omega
        simp [hle, this]
  · unfold keepLatest
    split
    · split
      · simp [h]
      · simp [h, SortedMap.find?_insert]
    · simp [h, SortedMap.find?_insert]

/-- What holds of the stages at hand holds of the entries, if it holds of each listed stage. -/
private theorem foldl_keepLatest_induct (p : Signed64 → Stage → Prop)
    {kept : SortedMap Signed64 Stage} {w : Window}
    (hkept : ∀ id s, kept.find? id = some s → p id s) (hw : ∀ s ∈ w, p s.id s) :
    ∀ id s, (w.foldl keepLatest kept).find? id = some s → p id s := by
  induction w generalizing kept with
  | nil => exact hkept
  | cons t w ih =>
    refine ih (fun id s hs => ?_) fun s hs => hw s (List.mem_cons_of_mem _ hs)
    rw [find?_keepLatest] at hs
    split at hs
    · rename_i h
      obtain ⟨rfl, -⟩ := h
      cases hs
      exact hw _ List.mem_cons_self
    · exact hkept id s hs

private theorem isSome_find?_foldl (kept : SortedMap Signed64 Stage) (w : Window)
    (id : Signed64) :
    ((w.foldl keepLatest kept).find? id).isSome =
      ((kept.find? id).isSome || w.any (·.id == id)) := by
  induction w generalizing kept with
  | nil => simp
  | cons s w ih =>
    have hs : ((keepLatest kept s).find? id).isSome = ((kept.find? id).isSome || s.id == id) := by
      rw [find?_keepLatest]
      cases hk : kept.find? id <;> by_cases h : s.id = id <;> simp [h]
      split <;> rfl
    rw [List.foldl_cons, ih, hs, List.any_cons, Bool.or_assoc]

private theorem id_of_find?_foldl (h : (w.foldl keepLatest .empty).find? id = some s) :
    s.id = id :=
  foldl_keepLatest_induct (fun id s => s.id = id) (by simp) (fun _ _ => rfl) id s h

private theorem map_id_latest (w : Window) :
    w.latest.map (·.id) = (w.foldl keepLatest .empty).toList.map (·.1) := by
  rw [latest, SortedMap.values, List.map_map]
  exact List.map_congr_left fun e he => id_of_find?_foldl (SortedMap.mem_toList_iff.1 he)

/-- Every latest attempt is kept under its id. -/
private theorem find?_foldl_of_mem_latest (h : s ∈ w.latest) :
    (w.foldl keepLatest .empty).find? s.id = some s := by
  rw [latest, SortedMap.values, List.mem_map] at h
  obtain ⟨e, he, rfl⟩ := h
  have hfind := SortedMap.mem_toList_iff.1 he
  rwa [id_of_find?_foldl hfind]

/-- The latest attempts are listed. -/
theorem mem_of_mem_latest (h : s ∈ w.latest) : s ∈ w :=
  foldl_keepLatest_induct (fun _ s => s ∈ w) (by simp) (fun _ h => h) s.id s
    (find?_foldl_of_mem_latest h)

theorem pairwise_latest (w : Window) : w.latest.Pairwise fun s t => s.id.val < t.id.val := by
  have h : ((w.foldl keepLatest .empty).toList.map (·.1)).Pairwise fun a b => compare a b = .lt :=
    List.pairwise_map.2 (w.foldl keepLatest .empty).ascending
  rw [← map_id_latest, List.pairwise_map] at h
  exact h.imp Ranged.compare_eq_lt_iff.1

theorem nodup_map_id_latest (w : Window) : (w.latest.map (·.id)).Nodup := by
  rw [List.Nodup, List.pairwise_map]
  exact (pairwise_latest w).imp fun h e => absurd (congrArg Ranged.val e) (by omega)

theorem eq_of_mem_latest {t : Stage} (hs : s ∈ w.latest) (ht : t ∈ w.latest) (h : s.id = t.id) :
    s = t :=
  List.inj_on_of_nodup_map (nodup_map_id_latest w) hs ht h

theorem latestAttempt?_eq_some_iff : w.latestAttempt? id = some s ↔ s ∈ w.latest ∧ s.id = id := by
  constructor
  · intro h
    exact ⟨List.mem_of_find?_eq_some h, by simpa using List.find?_some h⟩
  · rintro ⟨hs, rfl⟩
    cases he : w.latestAttempt? s.id with
    | none => exact absurd (List.find?_eq_none.1 he s hs) (by simp)
    | some t =>
      have ht := List.mem_of_find?_eq_some he
      have hid : t.id = s.id := by simpa using List.find?_some he
      rw [eq_of_mem_latest ht hs hid]

theorem mem_latest_iff : s ∈ w.latest ↔ w.latestAttempt? s.id = some s := by
  rw [latestAttempt?_eq_some_iff]
  exact (and_iff_left rfl).symm

theorem mem_map_id_latest_iff : id ∈ w.latest.map (·.id) ↔ id ∈ w.ids := by
  have h := isSome_find?_foldl .empty w id
  rw [map_id_latest, mem_ids_iff, List.mem_map]
  constructor
  · rintro ⟨e, he, rfl⟩
    have hs : ((w.foldl keepLatest .empty).find? e.1).isSome = true := by
      rw [SortedMap.mem_toList_iff.1 he]
      rfl
    simpa [h] using hs
  · rintro ⟨s, hs, hid⟩
    have hsome : ((w.foldl keepLatest .empty).find? id).isSome = true := by
      rw [h]
      simp only [SortedMap.find?_empty, Option.isSome_none, Bool.false_or, List.any_eq_true,
        beq_iff_eq]
      exact ⟨s, hs, hid⟩
    obtain ⟨t, ht⟩ := Option.isSome_iff_exists.1 hsome
    exact ⟨(id, t), SortedMap.mem_toList_iff.2 ht, rfl⟩

theorem mem_ids_of_mem_latest (h : s ∈ w.latest) : s.id ∈ w.ids :=
  mem_map_id_latest_iff.1 (List.mem_map_of_mem h)

theorem exists_mem_latest_of_mem_ids (h : id ∈ w.ids) : ∃ s ∈ w.latest, s.id = id :=
  List.mem_map.1 (mem_map_id_latest_iff.2 h)

theorem latestAttempt?_eq_none_iff : w.latestAttempt? id = none ↔ id ∉ w.ids := by
  rw [latestAttempt?, List.find?_eq_none]
  constructor
  · intro h hid
    obtain ⟨s, hs, rfl⟩ := exists_mem_latest_of_mem_ids hid
    exact h s hs (by simp)
  · intro h s hs heq
    have : s.id = id := by simpa using heq
    exact h (this ▸ mem_ids_of_mem_latest hs)

/-- What is kept under an id is as late as what was there before, and as what was listed. -/
private theorem attempt_le_of_find?_foldl {kept : SortedMap Signed64 Stage}
    (h : (w.foldl keepLatest kept).find? id = some s) :
    (∀ t, kept.find? id = some t → t.attempt.val ≤ s.attempt.val) ∧
      ∀ t ∈ w, t.id = id → t.attempt.val ≤ s.attempt.val := by
  induction w generalizing kept with
  | nil =>
    refine ⟨fun t ht => ?_, fun t ht => absurd ht List.not_mem_nil⟩
    cases ht.symm.trans h
    exact le_rfl
  | cons u w ih =>
    obtain ⟨hkept, hlisted⟩ := ih h
    rw [find?_keepLatest] at hkept
    split at hkept
    · rename_i hlater
      have hu := hkept u rfl
      refine ⟨fun t ht => ?_, List.forall_mem_cons.2 ⟨fun _ => hu, hlisted⟩⟩
      have hlt : t.attempt.val < u.attempt.val := by simpa [ht] using hlater.2
      omega
    · rename_i hearlier
      refine ⟨hkept, List.forall_mem_cons.2 ⟨fun hid => ?_, hlisted⟩⟩
      cases hfind : kept.find? id with
      | none => simp [hid, hfind] at hearlier
      | some t =>
        have hle := hkept t hfind
        have hge : u.attempt.val ≤ t.attempt.val := by simpa [hid, hfind] using hearlier
        omega

/-- No listed attempt of a stage is later than its latest one. -/
theorem attempt_le_of_mem_latest {t : Stage} (hs : s ∈ w.latest) (ht : t ∈ w) (hid : t.id = s.id) :
    t.attempt.val ≤ s.attempt.val :=
  (attempt_le_of_find?_foldl (find?_foldl_of_mem_latest hs)).2 t ht hid

/-- The latest attempts are of the stages that are listed. -/
theorem ids_latest (w : Window) : ids w.latest = w.ids := by
  ext id
  rw [ids, List.mem_toFinset, mem_map_id_latest_iff]

/-- A sum over the latest attempts, by id. -/
theorem sum_latest {M : Type} [AddCommMonoid M] (w : Window) (f : Stage → M) :
    (w.latest.map f).sum = ∑ id ∈ w.ids, (w.latestAttempt? id).elim 0 f := by
  rw [← ids_latest, ids, List.sum_toFinset _ (nodup_map_id_latest w), List.map_map]
  congr 1
  refine List.map_congr_left fun s hs => ?_
  rw [Function.comp_apply, mem_latest_iff.1 hs]
  rfl

/-! ## Which of equal attempts counts -/

/-- What is kept under an id was there before, or it was listed, and then neither what was there
before nor an attempt that was listed earlier is as late. -/
private theorem first_of_find?_foldl {kept : SortedMap Signed64 Stage}
    (h : (w.foldl keepLatest kept).find? id = some s) :
    kept.find? id = some s ∨
      (∀ t, kept.find? id = some t → t.attempt.val < s.attempt.val) ∧
        ∃ earlier later, w = earlier ++ s :: later ∧
          ∀ t ∈ earlier, t.id = id → t.attempt.val < s.attempt.val := by
  induction w generalizing kept with
  | nil => exact .inl h
  | cons u w ih =>
    rcases ih h with hfind | ⟨hbefore, earlier, later, rfl, hearlier⟩
    · -- The rest of the window has put nothing else under the id.
      rw [find?_keepLatest] at hfind
      split at hfind
      · rename_i hu
        cases hfind
        refine .inr ⟨fun t ht => ?_, [], w, rfl, by simp⟩
        simpa [ht] using hu.2
      · exact .inl hfind
    · -- What was there, and what is listed first, is no later than what is there after it.
      have hstep : ∀ t, (kept.find? id = some t ∨ u = t ∧ t.id = id) →
          t.attempt.val < s.attempt.val := by
        intro t ht
        have hsome : (([u].foldl keepLatest kept).find? id).isSome = true := by
          rw [isSome_find?_foldl]
          rcases ht with ht | ⟨rfl, ht⟩ <;> simp [ht]
        obtain ⟨v, hv⟩ := Option.isSome_iff_exists.1 hsome
        obtain ⟨hkept, hlisted⟩ := attempt_le_of_find?_foldl hv
        have hlt := hbefore v hv
        rcases ht with ht | ⟨rfl, hid⟩
        · have := hkept t ht
          omega
        · have := hlisted u List.mem_cons_self hid
          omega
      refine .inr ⟨fun t ht => hstep t (.inl ht), u :: earlier, later, rfl, ?_⟩
      exact List.forall_mem_cons.2 ⟨fun hid => hstep u (.inr ⟨rfl, hid⟩), hearlier⟩

/-- A stage is the attempt that counts: of the listed attempts of its stage none is later, and of
those with its number it is the first. -/
structure Counts (w : Window) (s : Stage) : Prop where
  latest : IsGreatest { a | ∃ t ∈ w, t.id = s.id ∧ t.attempt.val = a } s.attempt.val
  first : w.find? (fun t => t.id == s.id && t.attempt == s.attempt) = some s

theorem Counts.of_mem_latest (h : s ∈ w.latest) : w.Counts s := by
  have hfind := find?_foldl_of_mem_latest h
  refine ⟨⟨⟨s, mem_of_mem_latest h, rfl, rfl⟩, ?_⟩, ?_⟩
  · rintro _ ⟨t, ht, hid, rfl⟩
    exact attempt_le_of_mem_latest h ht hid
  · obtain habsurd | ⟨-, earlier, later, hw, hearlier⟩ := first_of_find?_foldl hfind
    · simp at habsurd
    rw [List.find?_eq_some_iff_append]
    refine ⟨by simp, earlier, later, hw, fun t ht => ?_⟩
    by_cases hid : t.id = s.id
    · have hne : t.attempt ≠ s.attempt := fun heq => by
        have := hearlier t ht hid
        rw [heq] at this
        omega
      simp [hne]
    · simp [hid]

theorem Counts.mem (h : w.Counts s) : s ∈ w := List.mem_of_find?_eq_some h.first

theorem Counts.attempt_le {t : Stage} (h : w.Counts s) (ht : t ∈ w) (hid : t.id = s.id) :
    t.attempt.val ≤ s.attempt.val :=
  h.latest.2 ⟨t, ht, hid, rfl⟩

/-- Of a stage only one attempt counts. -/
theorem Counts.unique {t : Stage} (hs : w.Counts s) (ht : w.Counts t) (hid : s.id = t.id) :
    s = t := by
  have hattempt : s.attempt = t.attempt :=
    Ranged.ext (le_antisymm (ht.attempt_le hs.mem hid) (hs.attempt_le ht.mem hid.symm))
  have hfirst := hs.first
  rw [hid, hattempt, ht.first] at hfirst
  cases hfirst
  rfl

/-- The latest attempts ascend strictly by id, they are of the stages that are listed, and an
attempt is among them if and only if it counts: it is listed, of the listed attempts of its stage
none is later, and of those as late as it is the first. -/
theorem latest_is_exact (w : Window) :
    w.latest.Pairwise (fun s t => s.id.val < t.id.val) ∧
      (w.latest.map (·.id)).toFinset = (w.map (·.id)).toFinset ∧
      ∀ s, s ∈ w.latest ↔ w.Counts s := by
  refine ⟨pairwise_latest w, ids_latest w, fun s => ⟨Counts.of_mem_latest, fun hs => ?_⟩⟩
  obtain ⟨t, ht, hid⟩ := exists_mem_latest_of_mem_ids (mem_ids_iff.2 ⟨s, hs.mem, rfl⟩)
  rwa [hs.unique (.of_mem_latest ht) hid.symm]

end SparkLedger.Window

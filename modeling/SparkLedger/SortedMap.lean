/-!
# Maps in the order of their keys

Association lists with lookup, insertion in key order and removal, and `SortedMap`, a list whose
keys ascend strictly, so that two maps with the same entries are equal.

* `find?_insert_self`, `find?_insert_of_ne`: insertion sets one key and leaves the others.
* `SortedMap.ext_find?`: a map is its lookup function.
* `SortedMap.ofList_toList`: a map is the map of its entries.
-/

namespace SparkLedger

/-! ## Association lists -/

namespace Assoc

variable {κ ν : Type}

/-- The value of the first entry with this key. -/
def find? [DecidableEq κ] (k : κ) : List (κ × ν) → Option ν
  | [] => none
  | (k', v) :: rest => if k' = k then some v else find? k rest

/-- Sets a key: replaces its entry, or puts a new one before the first larger key. -/
def insert [Ord κ] (k : κ) (v : ν) : List (κ × ν) → List (κ × ν)
  | [] => [(k, v)]
  | (k', v') :: rest =>
    match compare k k' with
    | .lt => (k, v) :: (k', v') :: rest
    | .eq => (k, v) :: rest
    | .gt => (k', v') :: insert k v rest

/-- Sets a key: replaces the value of its first entry, or puts a new one behind the others. -/
def put [DecidableEq κ] (k : κ) (v : ν) : List (κ × ν) → List (κ × ν)
  | [] => [(k, v)]
  | (k', v') :: rest => if k' = k then (k, v) :: rest else (k', v') :: put k v rest

/-- Drops every entry with this key. -/
def erase [DecidableEq κ] (k : κ) (entries : List (κ × ν)) : List (κ × ν) :=
  entries.filter fun e => e.1 ≠ k

/-- No key occurs twice. -/
def Distinct (entries : List (κ × ν)) : Prop := entries.Pairwise fun a b => a.1 ≠ b.1

/-- The keys ascend strictly. -/
def Ascending [Ord κ] (entries : List (κ × ν)) : Prop :=
  entries.Pairwise fun a b => compare a.1 b.1 = .lt

section Lookup

variable [DecidableEq κ]

@[simp] theorem find?_nil (k : κ) : find? k ([] : List (κ × ν)) = none := rfl

theorem find?_cons (k k' : κ) (v : ν) (rest : List (κ × ν)) :
    find? k ((k', v) :: rest) = if k' = k then some v else find? k rest := by
  -- Not by `rfl`: simp would rewrite by it without a proof, and congruence lemmas look for one.
  rw [find?]

theorem find?_append (k : κ) (xs ys : List (κ × ν)) :
    find? k (xs ++ ys) = (find? k xs).or (find? k ys) := by
  induction xs with
  | nil => simp
  | cons e rest ih =>
    obtain ⟨k', v⟩ := e
    by_cases h : k' = k <;> simp [find?_cons, h, ih]

theorem find?_map {μ : Type} (f : κ → ν → μ) (k : κ) (entries : List (κ × ν)) :
    find? k (entries.map fun e => (e.1, f e.1 e.2)) = (find? k entries).map (f k) := by
  induction entries with
  | nil => rfl
  | cons e rest ih =>
    obtain ⟨k', v⟩ := e
    rw [List.map_cons, find?_cons, find?_cons, ih]
    split
    · rename_i hk
      rw [hk, Option.map_some]
    · rfl

omit [DecidableEq κ] in
theorem distinct_map {μ : Type} (f : κ → ν → μ) {entries : List (κ × ν)} :
    Distinct (entries.map fun e => (e.1, f e.1 e.2)) ↔ Distinct entries :=
  List.pairwise_map

theorem find?_eq_none_iff {k : κ} {entries : List (κ × ν)} :
    find? k entries = none ↔ ∀ e ∈ entries, e.1 ≠ k := by
  induction entries with
  | nil => simp
  | cons e rest ih =>
    obtain ⟨k', v⟩ := e
    by_cases h : k' = k <;> simp [find?_cons, h, ih]

/-- The first of distinct keys is not among the others. -/
theorem Distinct.find?_tail {k : κ} {v : ν} {rest : List (κ × ν)}
    (h : Distinct ((k, v) :: rest)) : find? k rest = none :=
  find?_eq_none_iff.2 fun e he => ((List.pairwise_cons.1 h).1 e he).symm

theorem Distinct.find?_eq_of_mem {entries : List (κ × ν)} (h : Distinct entries) {k : κ} {v : ν}
    (hm : (k, v) ∈ entries) : find? k entries = some v := by
  induction entries with
  | nil => simp at hm
  | cons e₀ rest ih =>
    obtain ⟨k₀, v₀⟩ := e₀
    rcases List.mem_cons.1 hm with hm | hm
    · cases hm; simp [find?_cons]
    · simp [find?_cons, (List.pairwise_cons.1 h).1 _ hm, ih (List.pairwise_cons.1 h).2 hm]

theorem mem_of_find? {k : κ} {v : ν} {entries : List (κ × ν)} (h : find? k entries = some v) :
    (k, v) ∈ entries := by
  induction entries with
  | nil => simp at h
  | cons e rest ih =>
    obtain ⟨k', v'⟩ := e
    rw [find?_cons] at h
    split at h
    · simp_all
    · exact List.mem_cons_of_mem _ (ih h)

theorem find?_put (k k' : κ) (v : ν) (entries : List (κ × ν)) :
    find? k' (put k v entries) = if k = k' then some v else find? k' entries := by
  induction entries with
  | nil => simp [put, find?_cons]
  | cons e rest ih =>
    obtain ⟨k₀, v₀⟩ := e
    by_cases h : k₀ = k
    · subst h
      by_cases h' : k₀ = k' <;> simp [put, find?_cons, h']
    · by_cases h' : k₀ = k'
      · subst h'
        simp [put, find?_cons, h, Ne.symm h]
      · simp [put, find?_cons, h, h', ih]

theorem mem_put {k : κ} {v : ν} {entries : List (κ × ν)} {e : κ × ν} (h : e ∈ put k v entries) :
    e.1 = k ∨ e ∈ entries := by
  induction entries with
  | nil => simp_all [put]
  | cons e₀ rest ih =>
    obtain ⟨k₀, v₀⟩ := e₀
    rw [put] at h
    split at h
    · rcases List.mem_cons.1 h with rfl | h
      · exact .inl rfl
      · exact .inr (List.mem_cons_of_mem _ h)
    · rcases List.mem_cons.1 h with rfl | h
      · exact .inr List.mem_cons_self
      · exact (ih h).imp id (List.mem_cons_of_mem _)

theorem Distinct.put {entries : List (κ × ν)} (h : Distinct entries) (k : κ) (v : ν) :
    Distinct (Assoc.put k v entries) := by
  induction entries with
  | nil => exact List.pairwise_singleton _ _
  | cons e₀ rest ih =>
    obtain ⟨k₀, v₀⟩ := e₀
    obtain ⟨hhead, hrest⟩ := List.pairwise_cons.1 h
    rw [Assoc.put]
    split
    · rename_i hk
      exact List.pairwise_cons.2 ⟨fun e he => hk ▸ hhead e he, hrest⟩
    · rename_i hk
      refine List.pairwise_cons.2 ⟨fun e he heq => ?_, ih hrest⟩
      rcases mem_put he with hek | he
      · exact hk (heq.trans hek)
      · exact hhead e he heq

theorem find?_erase (k k' : κ) (entries : List (κ × ν)) :
    find? k' (erase k entries) = if k' = k then none else find? k' entries := by
  induction entries with
  | nil => simp [erase]
  | cons e rest ih =>
    obtain ⟨k₀, v₀⟩ := e
    simp only [erase, List.filter_cons] at ih ⊢
    by_cases h : k₀ = k
    · by_cases h' : k' = k
      · simp_all
      · have hne : k₀ ≠ k' := fun e => h' (e ▸ h)
        simp_all [find?_cons]
    · by_cases h' : k₀ = k' <;> simp_all [find?_cons]

end Lookup

section Order

variable [Ord κ]

theorem mem_insert {k : κ} {v : ν} {entries : List (κ × ν)} {e : κ × ν}
    (h : e ∈ insert k v entries) : e = (k, v) ∨ e ∈ entries := by
  induction entries with
  | nil => simpa [insert] using h
  | cons e₀ rest ih =>
    obtain ⟨k₀, v₀⟩ := e₀
    unfold insert at h
    split at h
    · simpa using h
    · simp only [List.mem_cons] at h ⊢
      rcases h with h | h
      · exact .inl h
      · exact .inr (.inr h)
    · simp only [List.mem_cons] at h ⊢
      rcases h with h | h
      · exact .inr (.inl h)
      · rcases ih h with h | h
        · exact .inl h
        · exact .inr (.inr h)

theorem Ascending.erase [DecidableEq κ] {entries : List (κ × ν)} (h : Ascending entries) (k : κ) :
    Ascending (Assoc.erase k entries) :=
  List.Pairwise.filter _ h

variable [Std.LawfulEqOrd κ] [DecidableEq κ]

theorem find?_insert (k k' : κ) (v : ν) (entries : List (κ × ν)) :
    find? k' (insert k v entries) = if k = k' then some v else find? k' entries := by
  induction entries with
  | nil => simp [insert, find?_cons]
  | cons e rest ih =>
    obtain ⟨k₀, v₀⟩ := e
    unfold insert
    split
    · simp [find?_cons]
    · rename_i h
      have : k = k₀ := Std.LawfulEqOrd.eq_of_compare h
      subst this
      by_cases h' : k = k' <;> simp [find?_cons, h']
    · rename_i h
      have hne : k ≠ k₀ := by
        intro e; subst e
        simp [Std.ReflOrd.compare_self] at h
      by_cases h₀ : k₀ = k'
      · subst h₀; simp [find?_cons, hne]
      · simp [find?_cons, h₀, ih]

omit [DecidableEq κ] in
theorem Ascending.distinct {entries : List (κ × ν)} (h : Ascending entries) : Distinct entries := by
  refine List.Pairwise.imp (fun hlt heq => ?_) h
  rw [heq] at hlt
  simp [Std.ReflOrd.compare_self] at hlt

variable [Std.TransOrd κ]

omit [DecidableEq κ] in
theorem Ascending.insert {entries : List (κ × ν)} (h : Ascending entries) (k : κ) (v : ν) :
    Ascending (Assoc.insert k v entries) := by
  induction entries with
  | nil => simp [Assoc.insert, Ascending]
  | cons e₀ rest ih =>
    obtain ⟨k₀, v₀⟩ := e₀
    have hrest := (List.pairwise_cons.1 h).2
    have hhead := (List.pairwise_cons.1 h).1
    unfold Assoc.insert
    split
    · rename_i hlt
      refine List.pairwise_cons.2 ⟨fun e he => ?_, h⟩
      rcases List.mem_cons.1 he with rfl | he
      · exact hlt
      · exact Std.TransCmp.lt_trans hlt (hhead e he)
    · rename_i heq
      have : k = k₀ := Std.LawfulEqOrd.eq_of_compare heq
      subst this
      exact List.pairwise_cons.2 ⟨fun e he => hhead e he, hrest⟩
    · rename_i hgt
      refine List.pairwise_cons.2 ⟨fun e he => ?_, ih hrest⟩
      rcases mem_insert he with rfl | he
      · exact Std.OrientedCmp.lt_of_gt hgt
      · exact hhead e he

/-- A key before the first of an ascending list is not in it. -/
theorem Ascending.find?_eq_none_of_lt {k k₀ : κ} {v : ν} {rest : List (κ × ν)}
    (h : Ascending ((k₀, v) :: rest)) (hk : compare k k₀ = .lt) :
    find? k ((k₀, v) :: rest) = none := by
  refine find?_eq_none_iff.2 fun e he heq => ?_
  have hlt : compare k e.1 = .lt := by
    rcases List.mem_cons.1 he with rfl | he
    · exact hk
    · exact Std.TransCmp.lt_trans hk ((List.pairwise_cons.1 h).1 e he)
  rw [heq] at hlt
  simp [Std.ReflOrd.compare_self] at hlt

/-- Two ascending lists that have the same keys have the same first key. -/
theorem Ascending.head_eq {ν' : Type} {k k' : κ} {v : ν} {v' : ν'} {xs : List (κ × ν)}
    {ys : List (κ × ν')} (hx : Ascending ((k, v) :: xs)) (hy : Ascending ((k', v') :: ys))
    (h : ∀ j, find? j ((k, v) :: xs) = none ↔ find? j ((k', v') :: ys) = none) : k = k' := by
  cases hc : compare k k' with
  | lt =>
    have := (h k).2 (hy.find?_eq_none_of_lt hc)
    simp [find?_cons] at this
  | eq => exact Std.LawfulEqOrd.eq_of_compare hc
  | gt =>
    have := (h k').1 (hx.find?_eq_none_of_lt (Std.OrientedCmp.lt_of_gt hc))
    simp [find?_cons] at this

/-- Two ascending lists with the same lookups are equal. -/
theorem Ascending.ext_find? {xs ys : List (κ × ν)} (hx : Ascending xs) (hy : Ascending ys)
    (h : ∀ k, find? k xs = find? k ys) : xs = ys := by
  induction xs generalizing ys with
  | nil =>
    cases ys with
    | nil => rfl
    | cons e rest =>
      obtain ⟨k, v⟩ := e
      have := h k
      simp [find?_cons] at this
  | cons e xs ih =>
    obtain ⟨k, v⟩ := e
    cases ys with
    | nil => have := h k; simp [find?_cons] at this
    | cons e' ys =>
      obtain ⟨k', v'⟩ := e'
      obtain rfl : k = k' := hx.head_eq hy fun j => by rw [h j]
      have hv := h k
      simp only [find?_cons, ↓reduceIte, Option.some.injEq] at hv
      subst hv
      congr 1
      refine ih (List.pairwise_cons.1 hx).2 (List.pairwise_cons.1 hy).2 fun j => ?_
      by_cases hj : k = j
      · subst hj
        rw [hx.distinct.find?_tail, hy.distinct.find?_tail]
      · simpa [find?_cons, hj] using h j

end Order

end Assoc

/-! ## Sorted maps -/

/-- A finite map, kept as the list of its entries in ascending key order. -/
structure SortedMap (κ ν : Type) [Ord κ] where
  /-- The entries, smallest key first. -/
  toList : List (κ × ν)
  ascending : Assoc.Ascending toList

namespace SortedMap

variable {κ ν : Type} [Ord κ]

instance [DecidableEq κ] [DecidableEq ν] : DecidableEq (SortedMap κ ν) := fun a b =>
  if h : a.toList = b.toList then
    .isTrue (by cases a; cases b; cases h; rfl)
  else
    .isFalse fun e => h (congrArg toList e)

/-- The map without entries. -/
def empty : SortedMap κ ν := ⟨[], .nil⟩

instance : EmptyCollection (SortedMap κ ν) := ⟨empty⟩

instance : Inhabited (SortedMap κ ν) := ⟨empty⟩

/-- The value of a key. -/
def find? [DecidableEq κ] (m : SortedMap κ ν) (k : κ) : Option ν := Assoc.find? k m.toList

@[simp] theorem find?_empty [DecidableEq κ] (k : κ) : (empty : SortedMap κ ν).find? k = none := rfl

/-- Whether the key has a value. -/
def contains [DecidableEq κ] (m : SortedMap κ ν) (k : κ) : Bool := (m.find? k).isSome

/-- The values, in the order of their keys. -/
def values (m : SortedMap κ ν) : List ν := m.toList.map (·.2)

section

variable [Std.TransOrd κ] [Std.LawfulEqOrd κ] [DecidableEq κ]

/-- Sets the value of a key. -/
def insert (m : SortedMap κ ν) (k : κ) (v : ν) : SortedMap κ ν :=
  ⟨Assoc.insert k v m.toList, m.ascending.insert k v⟩

/-- Drops a key. -/
def erase (m : SortedMap κ ν) (k : κ) : SortedMap κ ν :=
  ⟨Assoc.erase k m.toList, m.ascending.erase k⟩

/-- The map of these entries; of two with one key the later counts. -/
def ofList (entries : List (κ × ν)) : SortedMap κ ν :=
  entries.foldl (fun m e => m.insert e.1 e.2) empty

theorem find?_insert (m : SortedMap κ ν) (k k' : κ) (v : ν) :
    (m.insert k v).find? k' = if k = k' then some v else m.find? k' :=
  Assoc.find?_insert k k' v m.toList

@[simp] theorem find?_insert_self (m : SortedMap κ ν) (k : κ) (v : ν) :
    (m.insert k v).find? k = some v := by
  simp [find?_insert]

theorem find?_insert_of_ne (m : SortedMap κ ν) {k k' : κ} (h : k ≠ k') (v : ν) :
    (m.insert k v).find? k' = m.find? k' := by
  simp [find?_insert, h]

omit [Std.TransOrd κ] [Std.LawfulEqOrd κ] in
theorem find?_erase (m : SortedMap κ ν) (k k' : κ) :
    (m.erase k).find? k' = if k' = k then none else m.find? k' :=
  Assoc.find?_erase k k' m.toList

/-- A map is its lookup function. -/
theorem ext_find? {a b : SortedMap κ ν} (h : ∀ k, a.find? k = b.find? k) : a = b := by
  have := a.ascending.ext_find? b.ascending h
  cases a; cases b; cases this; rfl

private theorem find?_foldl_insert (k : κ) {entries : List (κ × ν)} (h : Assoc.Distinct entries)
    (m : SortedMap κ ν) :
    (entries.foldl (fun m e => m.insert e.1 e.2) m).find? k =
      (Assoc.find? k entries).or (m.find? k) := by
  induction entries generalizing m with
  | nil => simp
  | cons e rest ih =>
    obtain ⟨k₀, v⟩ := e
    rw [List.foldl_cons, ih (List.pairwise_cons.1 h).2, find?_insert, Assoc.find?_cons]
    by_cases hk : k₀ = k
    · subst hk
      simp [h.find?_tail]
    · simp [hk]

theorem find?_ofList {entries : List (κ × ν)} (h : Assoc.Distinct entries) (k : κ) :
    (ofList entries).find? k = Assoc.find? k entries := by
  rw [ofList, find?_foldl_insert k h]
  simp [find?, empty]

/-- The map of the entries of a map is the map. -/
@[simp] theorem ofList_toList (m : SortedMap κ ν) : ofList m.toList = m :=
  ext_find? fun k => find?_ofList m.ascending.distinct k

omit [DecidableEq κ] in
/-- A map made from a list has entries of the list only. -/
theorem mem_of_mem_ofList {entries : List (κ × ν)} {e : κ × ν}
    (h : e ∈ (ofList entries).toList) : e ∈ entries := by
  suffices H : ∀ m : SortedMap κ ν,
      e ∈ (entries.foldl (fun m e => m.insert e.1 e.2) m).toList → e ∈ m.toList ∨ e ∈ entries by
    simpa [empty] using H empty h
  clear h
  induction entries with
  | nil => exact fun m h => .inl h
  | cons e₀ rest ih =>
    intro m h
    rcases ih _ h with h | h
    · rcases Assoc.mem_insert h with h | h
      · exact .inr (List.mem_cons.2 (.inl h))
      · exact .inl h
    · exact .inr (List.mem_cons_of_mem _ h)

omit [Std.TransOrd κ] in
theorem mem_toList_iff {m : SortedMap κ ν} {k : κ} {v : ν} :
    (k, v) ∈ m.toList ↔ m.find? k = some v :=
  ⟨m.ascending.distinct.find?_eq_of_mem, Assoc.mem_of_find?⟩

end

end SortedMap

end SparkLedger

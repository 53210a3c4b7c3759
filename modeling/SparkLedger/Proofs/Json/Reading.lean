import SparkLedger.Json.MergePatch
import SparkLedger.Proofs.Json.Record

/-!
# Reading what others wrote

A stored document may have members that nobody asks for, may lack those that default, and may say
null. As long as no key occurs twice, what is read of it is a matter of lookups all the same.

* `Record.Reads`: what a record comes to on named members; `Record.read_of_reads` is the whole
  record.
* `optionally_find?_of_asMap?`, `asMap?_eq_some`: the entries of a map, by lookups.
* `find?_ofMap`, `find?_ofMap_names`: the members that a map is written as.
-/

namespace SparkLedger.Json

variable {α β : Type} {ms : List (String × Json)}

theorem nullably_asString?_eq_some_iff {o : Option Json} {s : String} :
    nullably asString? o = some (some s) ↔ o = some (.str s) := by
  cases o with
  | none => simp [nullably]
  | some j => cases j <;> simp [nullably, asNullable?, asString?]

/-- A text that may be left out is the text that is there. -/
theorem bind_asString?_of_nullably {o s : Option _} (h : nullably asString? o = some s) :
    o.bind asString? = s := by
  cases o with
  | none => exact Option.some.inj h
  | some j => cases j <;> simp_all [nullably, asNullable?, asString?]

/-! ## Records -/

namespace Record

/-- On these members the record comes to this. -/
def Reads (ms : List (String × Json)) (r : Record α) (o : Option α) : Prop :=
  r.run (.named ms) = o.map (·, .named ms)

theorem reads_pure (a : α) : Reads ms (pure a) (some a) := rfl

theorem Reads.bind {r : Record α} {f : α → Record β} {o : Option α} {g : α → Option β}
    (hr : Reads ms r o) (hf : ∀ a, Reads ms (f a) (g a)) : Reads ms (r >>= f) (o.bind g) := by
  unfold Reads at *
  rw [StateT.run_bind, hr]
  cases o with
  | none => rfl
  | some a => exact hf a

variable (h : Assoc.Distinct ms) (name : String) (read : Json → Option α)
include h

theorem reads_required :
    Reads ms (required name read) ((Assoc.find? name ms).elim none read) :=
  run_field h name read _ _

theorem reads_defaulted (default : α) :
    Reads ms (defaulted name read default) ((Assoc.find? name ms).elim (some default) read) :=
  run_field h name read _ _

theorem reads_optional :
    Reads ms (optional name read) (nullably read (Assoc.find? name ms)) := by
  have hrun := run_field h name (asNullable? read) (some none) none
  unfold Reads optional
  rw [hrun]
  cases Assoc.find? name ms <;> rfl

omit h in
theorem read_of_reads {r : Record α} {o : Option α} (hr : Reads ms r o) :
    Record.read r (.obj ms) = o := by
  unfold Reads at hr
  rw [Record.read, fields?, Option.bind_eq_bind, Option.bind_some, hr]
  cases o <;> rfl

omit h in
/-- What reads as a record and is no array is an object. -/
theorem exists_members_of_read {r : Record α} {j : Json} {a : α} (ha : Record.read r j = some a)
    (hj : ∀ xs, j ≠ .arr xs) : ∃ ms, j = .obj ms := by
  cases j with
  | obj ms => exact ⟨ms, rfl⟩
  | arr xs => exact absurd rfl (hj xs)
  | _ => cases ha

end Record

/-! ## Maps -/

/-- All members can be read if each of them can. -/
private theorem exists_mapM_eq_some_iff {β γ : Type} {f : β → Option γ} {xs : List β} :
    (∃ ys, xs.mapM f = some ys) ↔ ∀ x ∈ xs, ∃ y, f x = some y := by
  induction xs with
  | nil => simp
  | cons x xs ih =>
    rw [List.forall_mem_cons, ← ih]
    simp only [List.mapM_cons, Option.bind_eq_bind, Option.bind_eq_some_iff, Option.pure_def,
      Option.some.injEq]
    constructor
    · rintro ⟨_, y, hy, ys, hys, -⟩
      exact ⟨⟨y, hy⟩, ys, hys⟩
    · rintro ⟨⟨y, hy⟩, ys, hys⟩
      exact ⟨_, y, hy, ys, hys, rfl⟩

section

variable {κ : Type} [DecidableEq κ] {name : κ → String} {ofName? : String → Option κ}
  {read : Json → Option α}

private theorem optionally_find?_of_mapM (hname : ∀ s k, ofName? s = some k ↔ s = name k)
    (h : Assoc.Distinct ms) {es : List (κ × α)}
    (hes : (ms.mapM fun m => do return ((← ofName? m.1), (← read m.2))) = some es) :
    Assoc.Distinct es ∧
      ∀ k, optionally read (Assoc.find? (name k) ms) = some (Assoc.find? k es) := by
  have hinj : Function.Injective name := fun k l hkl =>
    Option.some.inj (by rw [← (hname _ l).2 rfl, ← hkl, (hname _ k).2 rfl])
  induction ms generalizing es with
  | nil =>
    cases hes
    exact ⟨.nil, fun k => rfl⟩
  | cons m ms ih =>
    obtain ⟨s, v⟩ := m
    simp only [List.mapM_cons, Option.bind_eq_bind, Option.bind_eq_some_iff, Option.pure_def,
      Option.some.injEq] at hes
    obtain ⟨_, ⟨k, hk, a, ha, rfl⟩, rest, hrest, rfl⟩ := hes
    obtain ⟨hdistinct, hfind⟩ := ih (List.pairwise_cons.1 h).2 hrest
    obtain rfl := (hname s k).1 hk
    have hnone : Assoc.find? k rest = none := by
      have hk := hfind k
      rw [h.find?_tail] at hk
      exact (Option.some.inj hk).symm
    refine ⟨List.pairwise_cons.2 ⟨fun e he heq => ?_, hdistinct⟩, fun l => ?_⟩
    · exact Assoc.find?_eq_none_iff.1 hnone e he heq.symm
    · rw [Assoc.find?_cons, Assoc.find?_cons]
      by_cases hl : k = l
      · subst hl
        simp [optionally, ha]
      · rw [if_neg fun hkl => hl (hinj hkl), if_neg hl, hfind l]

variable [Ord κ] [Std.TransOrd κ] [Std.LawfulEqOrd κ] {m : SortedMap κ α}

/-- The entries of a map are read from the members with their names, and there are no others. -/
theorem optionally_find?_of_asMap? (hname : ∀ s k, ofName? s = some k ↔ s = name k)
    (h : Assoc.Distinct ms) (hm : asMap? ofName? read (.obj ms) = some m) (k : κ) :
    optionally read (Assoc.find? (name k) ms) = some (m.find? k) := by
  obtain ⟨es, hes, rfl⟩ := Option.map_eq_some_iff.1 hm
  obtain ⟨hdistinct, hfind⟩ := optionally_find?_of_mapM hname h hes
  rw [SortedMap.find?_ofList hdistinct, hfind k]

/-- Every member of a map that can be read has a name that can be read. -/
theorem exists_name_of_asMap? (hname : ∀ s k, ofName? s = some k ↔ s = name k)
    (hm : asMap? ofName? read (.obj ms) = some m) {s : String} {v : Json}
    (hv : Assoc.find? s ms = some v) : ∃ k, s = name k := by
  obtain ⟨es, hes, -⟩ := Option.map_eq_some_iff.1 hm
  obtain ⟨e, he⟩ := exists_mapM_eq_some_iff.1 ⟨es, hes⟩ _ (Assoc.mem_of_find? hv)
  obtain ⟨k, hk, -⟩ := Option.bind_eq_some_iff.1 he
  exact ⟨k, (hname s k).1 hk⟩

/-- Members whose names can be read, and that have the entries of a map, read as the map. -/
theorem asMap?_eq_some (hname : ∀ s k, ofName? s = some k ↔ s = name k)
    (h : Assoc.Distinct ms) (hnames : ∀ s v, Assoc.find? s ms = some v → ∃ k, s = name k)
    (hread : ∀ k, optionally read (Assoc.find? (name k) ms) = some (m.find? k)) :
    asMap? ofName? read (.obj ms) = some m := by
  obtain ⟨es, hes⟩ : ∃ es, (ms.mapM fun m => do return ((← ofName? m.1), (← read m.2))) =
      some es := by
    refine exists_mapM_eq_some_iff.2 fun e he => ?_
    have hv := h.find?_eq_of_mem he
    obtain ⟨k, hk⟩ := hnames e.1 e.2 hv
    have hentry := hread k
    rw [← hk, hv] at hentry
    obtain ⟨a, ha, -⟩ := Option.map_eq_some_iff.1 hentry
    exact ⟨(k, a), Option.bind_eq_some_iff.2 ⟨k, (hname e.1 k).2 hk,
      Option.bind_eq_some_iff.2 ⟨a, ha, rfl⟩⟩⟩
  have hmap : asMap? ofName? read (.obj ms) = some (SortedMap.ofList es) := by
    rw [asMap?, hes]
    rfl
  rw [hmap]
  refine congrArg some (SortedMap.ext_find? fun k => ?_)
  exact Option.some.inj ((optionally_find?_of_asMap? hname h hmap k).symm.trans (hread k))

end

/-! ## Maps as they are written -/

section

variable {κ : Type} [DecidableEq κ] [Ord κ] [Std.LawfulEqOrd κ] {name : κ → String}
  {write : α → Json}

theorem find?_ofMap (m : SortedMap String α) (k : String) :
    Assoc.find? k (ofMap write m).members = (m.find? k).map write :=
  Assoc.find?_map (fun _ => write) k m.toList

theorem find?_ofMap_names (hinj : Function.Injective name) (m : SortedMap κ α) (k : κ) :
    Assoc.find? (name k)
        (ofMap write (.ofList (m.toList.map fun e => (name e.1, e.2)))).members =
      (m.find? k).map write := by
  have hdistinct := (Faithful.distinct_map_name hinj).2 m.ascending.distinct
  rw [find?_ofMap, SortedMap.find?_ofList hdistinct, Faithful.find?_map_name hinj]
  rfl

omit [DecidableEq κ] [Std.LawfulEqOrd κ] in
theorem exists_name_of_find?_ofMap {m : SortedMap κ α} {s : String} {v : Json}
    (h : Assoc.find? s (ofMap write (.ofList (m.toList.map fun e => (name e.1, e.2)))).members =
      some v) : ∃ k, s = name k := by
  rw [find?_ofMap] at h
  obtain ⟨a, ha, -⟩ := Option.map_eq_some_iff.1 h
  obtain ⟨e, -, he⟩ := List.mem_map.1 (SortedMap.mem_of_mem_ofList (SortedMap.mem_toList_iff.2 ha))
  exact ⟨e.1, (congrArg Prod.fst he).symm⟩

end

end SparkLedger.Json

import SparkLedger.Json.Record
import SparkLedger.Proofs.Json.Parts

/-!
# Reading what was written

Documents that are written here are plain: values without null and without float. In an object of
distinct keys a reader sees one member per name, so what it reads is a matter of lookups.

* `Plain`: values without null and float; `plain_obj`, `plain_arr` and `plain_ofPresent` open it.
* `find?_present_cons`: the members of an object some of whose fields are absent.
* `Record.run_required`, `run_defaulted`, `run_optional`: one field of a record.
* `lastMember?_eq`: one member of a cluster object; `lastMember?_of_distinct` says the same of
  objects that others wrote, whose members may be null.
* `Faithful`: what is written is plain and reads back; lists and maps keep it.
-/

namespace SparkLedger.Json

/-! ## Plain documents -/

/-- A value that has neither null nor float anywhere. -/
def Plain : Json → Prop := Everywhere fun j => InForm j ∧ j ≠ .null ∧ ∀ f, j ≠ .float f

@[simp] theorem plain_bool (b : Bool) : Plain (.bool b) := ⟨trivial, nofun, nofun⟩

@[simp] theorem plain_int (i : Int) : Plain (.int i) := ⟨trivial, nofun, nofun⟩

@[simp] theorem plain_str (s : String) : Plain (.str s) := ⟨trivial, nofun, nofun⟩

@[simp] theorem plain_arr {xs : List Json} : Plain (.arr xs) ↔ ∀ x ∈ xs, Plain x := by
  simp [Plain, everywhere_arr, InForm]

theorem plain_obj {ms : List (String × Json)} :
    Plain (.obj ms) ↔ Assoc.Ascending ms ∧ ∀ m ∈ ms, Plain m.2 := by
  simp [Plain, everywhere_obj, InForm]

theorem plain_of_keys {ms : List (String × Json)}
    (h : (ms.map (·.1)).Pairwise fun a b => compare a b = .lt) (hv : ∀ m ∈ ms, Plain m.2) :
    Plain (.obj ms) :=
  plain_obj.2 ⟨List.pairwise_map.1 h, hv⟩

namespace Plain

variable {j : Json}

theorem isValue (h : Plain j) : IsValue j := h.mono fun _ h => h.1

theorem ne_null (h : Plain j) : j ≠ .null := h.self.2.1

theorem everywhere_ne_float (h : Plain j) : Everywhere (∀ f, · ≠ .float f) j :=
  h.mono fun _ h => h.2.2

theorem member {ms : List (String × Json)} (h : Plain (.obj ms)) {k : String} {v : Json}
    (hv : Assoc.find? k ms = some v) : Plain v :=
  (plain_obj.1 h).2 _ (Assoc.mem_of_find? hv)

end Plain

theorem undisguised_of_plain {j : Json} (h : Plain j) : j.undisguised = j := by
  cases j with
  | disguised j => exact absurd h.self.1 id
  | _ => rfl

/-- Plain documents that are equal as values are equal. -/
theorem eq_of_same_of_plain {a b : Json} (hb : Plain b) (h : a.same b = true) : a = b := by
  rw [same_comm] at h
  exact (eq_of_same hb.everywhere_ne_float h).symm

/-! ## Absent members -/

/-- The members that are present. -/
def present (ps : List (String × Option Json)) : List (String × Json) :=
  ps.filterMap fun p => p.2.map (p.1, ·)

theorem ofPresent_eq (ps : List (String × Option Json)) : ofPresent ps = .obj (present ps) := rfl

@[simp] theorem present_nil : present [] = [] := rfl

theorem find?_present_cons (k k' : String) (v : Option Json) (ps : List (String × Option Json)) :
    Assoc.find? k (present ((k', v) :: ps)) =
      if k' = k then v.or (Assoc.find? k (present ps)) else Assoc.find? k (present ps) := by
  cases v with
  | none => simp [present]
  | some v => simp [present, Assoc.find?_cons]

theorem ascending_present {ps : List (String × Option Json)}
    (h : (ps.map (·.1)).Pairwise fun a b => compare a b = .lt) : Assoc.Ascending (present ps) := by
  refine List.Pairwise.filterMap _ (fun a b hab m hm n hn => ?_) (List.pairwise_map.1 h)
  obtain ⟨v, -, rfl⟩ := Option.map_eq_some_iff.1 hm
  obtain ⟨w, -, rfl⟩ := Option.map_eq_some_iff.1 hn
  exact hab

theorem plain_ofPresent {ps : List (String × Option Json)}
    (h : (ps.map (·.1)).Pairwise fun a b => compare a b = .lt)
    (hv : ∀ p ∈ ps, ∀ v ∈ p.2, Plain v) : Plain (ofPresent ps) := by
  rw [ofPresent_eq, plain_obj]
  refine ⟨ascending_present h, fun m hm => ?_⟩
  obtain ⟨p, hp, hm⟩ := List.mem_filterMap.1 hm
  obtain ⟨v, hpv, rfl⟩ := Option.map_eq_some_iff.1 hm
  exact hv p hp v hpv

/-! ## Reading members -/

section

variable {α : Type} {ms : List (String × Json)}

theorem filter_key_eq (h : Assoc.Distinct ms) (name : String) :
    ms.filter (·.1 = name) = ((Assoc.find? name ms).map (name, ·)).toList := by
  induction ms with
  | nil => rfl
  | cons m ms ih =>
    obtain ⟨k, v⟩ := m
    rw [List.filter_cons, Assoc.find?_cons, ih (List.pairwise_cons.1 h).2]
    by_cases hname : k = name
    · subst hname
      simp [h.find?_tail]
    · simp [hname]

theorem asNullable?_of_ne_null (read : Json → Option α) {j : Json} (h : j ≠ .null) :
    asNullable? read j = (read j).map some := by
  cases j <;> first | rfl | exact absurd rfl h

/-- Reads what may be absent. -/
def optionally (read : Json → Option α) : Option Json → Option (Option α)
  | none => some none
  | some j => (read j).map some

theorem optionally_map (write : α → Json) {read : Json → Option α}
    (h : ∀ a, read (write a) = some a) (o : Option α) :
    optionally read (o.map write) = some o := by
  cases o with
  | none => rfl
  | some a => simp [optionally, h]

/-- Reads a member that may be null or absent. -/
def nullably (read : Json → Option α) : Option Json → Option (Option α)
  | none => some none
  | some j => asNullable? read j

theorem lastMember?_of_distinct (h : Assoc.Distinct ms) (name : String)
    (read : Json → Option α) :
    lastMember? name read ms = nullably read (Assoc.find? name ms) := by
  rw [lastMember?, filter_key_eq h]
  cases Assoc.find? name ms <;> simp [nullably]

theorem nullably_eq_optionally (h : Plain (.obj ms)) (name : String) (read : Json → Option α) :
    nullably read (Assoc.find? name ms) = optionally read (Assoc.find? name ms) := by
  cases hv : Assoc.find? name ms with
  | none => rfl
  | some v => exact asNullable?_of_ne_null read (h.member hv).ne_null

theorem lastMember?_eq (h : Plain (.obj ms)) (name : String) (read : Json → Option α) :
    lastMember? name read ms = optionally read (Assoc.find? name ms) := by
  rw [lastMember?_of_distinct (plain_obj.1 h).1.distinct, nullably_eq_optionally h]

theorem lastMemberD?_eq (h : Plain (.obj ms)) (name : String) (read : Json → Option α)
    (default : α) :
    lastMemberD? name read default ms = (Assoc.find? name ms).elim (some default) read := by
  rw [lastMemberD?, lastMember?_eq h]
  cases Assoc.find? name ms with
  | none => rfl
  | some v => simp [optionally, Function.comp_def]

namespace Record

theorem run_field (h : Assoc.Distinct ms) (name : String) (read : Json → Option α)
    (absent short : Option α) :
    (field name read absent short).run (.named ms) =
      ((Assoc.find? name ms).elim absent read).map (·, .named ms) := by
  have hfilter := filter_key_eq h name
  simp only [StateT.run, field, hfilter]
  cases Assoc.find? name ms with
  | none => rfl
  | some v => rfl

theorem run_required (h : Plain (.obj ms)) (name : String) (read : Json → Option α) :
    (required name read).run (.named ms) =
      ((Assoc.find? name ms).bind read).map (·, .named ms) := by
  rw [required, run_field (plain_obj.1 h).1.distinct]
  cases Assoc.find? name ms <;> rfl

theorem run_defaulted (h : Plain (.obj ms)) (name : String) (read : Json → Option α)
    (default : α) :
    (defaulted name read default).run (.named ms) =
      ((Assoc.find? name ms).elim (some default) read).map (·, .named ms) :=
  run_field (plain_obj.1 h).1.distinct name read _ _

theorem run_optional (h : Plain (.obj ms)) (name : String) (read : Json → Option α) :
    (optional name read).run (.named ms) =
      (optionally read (Assoc.find? name ms)).map (·, .named ms) := by
  rw [← nullably_eq_optionally h, optional, run_field (plain_obj.1 h).1.distinct]
  cases Assoc.find? name ms <;> rfl

theorem read_obj {r : Record α} {a : α} (h : r.run (.named ms) = some (a, .named ms)) :
    read r (.obj ms) = some a := by
  simp [read, fields?, h]

theorem read_ofPresent {r : Record α} {ps : List (String × Option Json)} {a : α}
    (h : r.run (.named (present ps)) = some (a, .named (present ps))) :
    read r (ofPresent ps) = some a :=
  read_obj h

end Record

/-! ## Faithful pairs -/

@[simp] theorem optionally_str (o : Option String) : optionally asString? (o.map .str) = some o :=
  optionally_map .str (fun _ => rfl) o

@[simp] theorem optionally_bool (o : Option Bool) : optionally asBool? (o.map .bool) = some o :=
  optionally_map .bool (fun _ => rfl) o

@[simp] theorem optionally_int {lo hi : Int} (o : Option (Ranged lo hi)) :
    optionally asRanged? (o.map fun i => .int i.val) = some o :=
  optionally_map _ Ranged.ofInt?_val o

/-- What is written is plain, and reads back. -/
structure Faithful (write : α → Json) (read : Json → Option α) : Prop where
  plain (a : α) : Plain (write a)
  read_write (a : α) : read (write a) = some a

theorem faithful_str : Faithful .str asString? := ⟨plain_str, fun _ => rfl⟩

theorem faithful_bool : Faithful .bool asBool? := ⟨plain_bool, fun _ => rfl⟩

theorem faithful_int {lo hi : Int} :
    Faithful (fun i : Ranged lo hi => .int i.val) asRanged? :=
  ⟨fun i => plain_int i.val, Ranged.ofInt?_val⟩

private theorem mapM_eq_some_map {β γ : Type} {f : β → Option γ} {g : β → γ} {xs : List β}
    (h : ∀ x ∈ xs, f x = some (g x)) : xs.mapM f = some (xs.map g) := by
  induction xs with
  | nil => rfl
  | cons x xs ih =>
    obtain ⟨hx, hxs⟩ := List.forall_mem_cons.1 h
    simp [List.mapM_cons, hx, ih hxs]

namespace Faithful

variable {write : α → Json} {read : Json → Option α}

theorem inj (hw : Faithful write read) {a b : α} (h : write a = write b) : a = b :=
  Option.some.inj (by rw [← hw.read_write a, h, hw.read_write b])

theorem eq_of_same (hw : Faithful write read) {a b : α} (h : (write b).same (write a) = true) :
    b = a :=
  hw.inj (eq_of_same_of_plain (hw.plain a) h)

theorem optionally (h : Faithful write read) (o : Option α) :
    optionally read (o.map write) = some o :=
  optionally_map write h.read_write o

/-- Lists of what is faithful. -/
theorem list (h : Faithful write read) :
    Faithful (fun as => .arr (as.map write)) (asList? read) where
  plain as := by
    rw [plain_arr]
    intro x hx
    obtain ⟨a, -, rfl⟩ := List.mem_map.1 hx
    exact h.plain a
  read_write as := by
    have hback : ∀ a ∈ as, (read ∘ write) a = some (id a) := fun a _ => h.read_write a
    rw [asList?, List.mapM_map, mapM_eq_some_map hback, List.map_id]

variable {κ : Type}

private theorem exists_map_eq {β γ : Type} {f : β → γ} {ys : List γ} (h : ∀ y ∈ ys, ∃ x, f x = y) :
    ∃ xs : List β, xs.map f = ys := by
  induction ys with
  | nil => exact ⟨[], rfl⟩
  | cons y ys ih =>
    obtain ⟨⟨x, hx⟩, hys⟩ := List.forall_mem_cons.1 h
    obtain ⟨xs, hxs⟩ := ih hys
    exact ⟨x :: xs, by rw [List.map_cons, hx, hxs]⟩

theorem find?_map_name [DecidableEq κ] {name : κ → String}
    (hinj : Function.Injective name) (k : κ) (es : List (κ × α)) :
    Assoc.find? (name k) (es.map fun e => (name e.1, e.2)) = Assoc.find? k es := by
  induction es with
  | nil => rfl
  | cons e es ih =>
    obtain ⟨k', a⟩ := e
    simp only [List.map_cons, Assoc.find?_cons, ih, hinj.eq_iff]

theorem distinct_map_name {name : κ → String} (hinj : Function.Injective name)
    {es : List (κ × α)} :
    Assoc.Distinct (es.map fun e => (name e.1, e.2)) ↔ Assoc.Distinct es := by
  simp [Assoc.Distinct, List.pairwise_map, hinj.eq_iff]

variable [Ord κ] [Std.TransOrd κ] [Std.LawfulEqOrd κ] [DecidableEq κ]

theorem plain_ofMap (h : Faithful write read) (m : SortedMap String α) : Plain (ofMap write m) := by
  rw [ofMap, plain_obj]
  refine ⟨List.pairwise_map.2 m.ascending, fun e he => ?_⟩
  obtain ⟨e, -, rfl⟩ := List.mem_map.1 he
  exact h.plain e.2

/-- Maps under the names of their keys. The members are in the order of the names, which need not
be that of the keys. -/
theorem keyed (h : Faithful write read) {name : κ → String} {ofName? : String → Option κ}
    (hname : ∀ k, ofName? (name k) = some k) :
    Faithful (fun m : SortedMap κ α =>
      ofMap write (.ofList (m.toList.map fun e => (name e.1, e.2)))) (asMap? ofName? read) where
  plain m := h.plain_ofMap _
  read_write m := by
    have hinj : Function.Injective name := fun k l hkl =>
      Option.some.inj (by rw [← hname, hkl, hname])
    have hlist := (distinct_map_name hinj).2 m.ascending.distinct
    obtain ⟨es, hes⟩ : ∃ es : List (κ × α), es.map (fun e => (name e.1, e.2)) =
        (SortedMap.ofList (m.toList.map fun e => (name e.1, e.2))).toList := by
      refine exists_map_eq fun e he => ?_
      obtain ⟨e', -, rfl⟩ := List.mem_map.1 (SortedMap.mem_of_mem_ofList he)
      exact ⟨e', rfl⟩
    have hdistinct : Assoc.Distinct es := by
      rw [← distinct_map_name hinj, hes]
      exact (SortedMap.ascending _).distinct
    have hm : SortedMap.ofList es = m := by
      refine SortedMap.ext_find? fun k => ?_
      rw [SortedMap.find?_ofList hdistinct, ← find?_map_name hinj, hes]
      exact (SortedMap.find?_ofList hlist _).trans (find?_map_name hinj k _)
    rw [ofMap, ← hes, asMap?, List.map_map, List.mapM_map, mapM_eq_some_map (g := id), List.map_id]
    · exact congrArg some hm
    · intro e _
      simp [hname, h.read_write]

/-- Maps from texts. -/
theorem textMap (h : Faithful write read) : Faithful (ofMap write) (asTextMap? read) where
  plain := h.plain_ofMap
  read_write m := by
    have hread (a : α) : read (write a).undisguised = some a := by
      rw [undisguised_of_plain (h.plain a), h.read_write]
    rw [ofMap, asTextMap?, asMap?, List.mapM_map, mapM_eq_some_map (g := id), List.map_id]
    · simp
    · intro e _
      simp [hread]

end Faithful

end

end SparkLedger.Json

import Mathlib.Logic.Relation
import SparkLedger.Json.Record

/-!
# Edits that a record does not show

Others may say more in a record than is asked for, say it in another order, and leave out what
goes without saying. What is read of the record stays the same.

* `Declarations`: the members that a record asks for, each with its defaults and with the edits
  inside its value.
* `RecordEdit`, `ItemEdit`: one edit of an object, and of one item of an array.
* `Record.Carries`: what is read of some members is read, changed, of others; a record carries
  what each of its fields does.
* `Keeps`: a reader that reads the same after an edit. Records keep the edits of their members,
  and lists those of their items.
-/

namespace SparkLedger.Json

variable {α β γ : Type}

/-! ## Edits -/

/-- A member that a record asks for. -/
structure Declaration where
  /-- The values that say what the absence of the member says. -/
  IsDefault : Json → Prop
  /-- The edits inside a value of the member. -/
  Edit : Json → Json → Prop

namespace Declaration

/-- A member that is read with a default and has values with edits inside. -/
def nested (read : Json → Option α) (default : α) (Edit : Json → Json → Prop) : Declaration :=
  ⟨fun v => read v = some default, Edit⟩

/-- A member that is read with a default. -/
def leaf (read : Json → Option α) (default : α) : Declaration :=
  nested read default fun _ _ => False

/-- A text, empty by default. -/
def text : Declaration := leaf asString? ""

/-- A number, zero by default. -/
def count : Declaration := leaf asRanged? (0 : Signed64)

/-- A truth value, false by default. -/
def flag : Declaration := leaf asBool? false

/-- A member that may be null, as it is by default. -/
def nullable (read : Json → Option α) : Declaration := leaf (asNullable? read) none

end Declaration

/-- The members that a record asks for, by their names. -/
abbrev Declarations := List (String × Declaration)

/-- One edit of the members of an object. -/
inductive MemberEdit (ds : Declarations) : List (String × Json) → List (String × Json) → Prop where
  /-- A member that is not declared, in any place. -/
  | added {before after : List (String × Json)} {name : String} {v : Json}
      (hname : Assoc.find? name ds = none) :
      MemberEdit ds (before ++ after) (before ++ (name, v) :: after)
  /-- Another order. -/
  | permuted {ms ns : List (String × Json)} (h : ms.Perm ns) : MemberEdit ds ms ns
  /-- A declared member left out that says what its absence says. -/
  | omitted {before after : List (String × Json)} {name : String} {v : Json} {d : Declaration}
      (hname : Assoc.find? name ds = some d) (hv : d.IsDefault v) :
      MemberEdit ds (before ++ (name, v) :: after) (before ++ after)
  /-- An edit inside the value of a declared member. -/
  | inside {before after : List (String × Json)} {name : String} {v w : Json} {d : Declaration}
      (hname : Assoc.find? name ds = some d) (hv : d.Edit v w) :
      MemberEdit ds (before ++ (name, v) :: after) (before ++ (name, w) :: after)

/-- One edit of an object that stands for a record. -/
inductive RecordEdit (ds : Declarations) : Json → Json → Prop where
  | members {ms ns : List (String × Json)} (h : MemberEdit ds ms ns) :
      RecordEdit ds (.obj ms) (.obj ns)

/-- An edit of one item of an array. -/
inductive ItemEdit (Edit : Json → Json → Prop) : Json → Json → Prop where
  | item {xs : List Json} {i : Nat} {x y : Json} (hi : xs[i]? = some x) (h : Edit x y) :
      ItemEdit Edit (.arr xs) (.arr (xs.set i y))

/-- A member put among others, in the place of the one that had its name if there was one. -/
inductive Put (name : String) (v : Json) : List (String × Json) → List (String × Json) → Prop where
  | replaced {before after : List (String × Json)} {old : Json} :
      Put name v (before ++ (name, old) :: after) (before ++ (name, v) :: after)
  | inserted {before after : List (String × Json)} (h : ∀ m ∈ before ++ after, m.1 ≠ name) :
      Put name v (before ++ after) (before ++ (name, v) :: after)

/-! ## The members of one name -/

section

variable {ds : Declarations} {ms ns before after : List (String × Json)} {name key : String}
  {v : Json} {d : Declaration}

/-- A member of another name is none of these. -/
private theorem filter_insert_of_ne (h : key ≠ name) :
    (before ++ (key, v) :: after).filter (·.1 = name) = (before ++ after).filter (·.1 = name) := by
  rw [List.filter_append, List.filter_append, List.filter_cons_of_neg (by simpa using h)]

private theorem ne_of_filter_insert_eq_nil
    (h : (before ++ (key, v) :: after).filter (·.1 = name) = []) : key ≠ name := by
  rintro rfl
  simp at h

/-- A member that is the only one of its name. -/
private theorem filter_insert_eq_singleton {m : String × Json}
    (h : (before ++ (key, v) :: after).filter (·.1 = key) = [m]) :
    before.filter (·.1 = key) = [] ∧ after.filter (·.1 = key) = [] ∧ v = m.2 := by
  rw [List.filter_append, List.filter_cons_of_pos (by simp)] at h
  rcases List.append_eq_singleton_iff.1 h with ⟨hbefore, hrest⟩ | ⟨-, hrest⟩
  · obtain ⟨rfl, hafter⟩ := List.cons_eq_cons.1 hrest
    exact ⟨hbefore, hafter, rfl⟩
  · exact absurd hrest (List.cons_ne_nil _ _)

private theorem ne_of_find? (hd : Assoc.find? name ds = some d)
    (hkey : Assoc.find? key ds = none) : key ≠ name := by
  rintro rfl
  cases hkey.symm.trans hd

/-- The members of a declared name after an edit, if there were none. -/
theorem MemberEdit.filter_eq_nil (h : MemberEdit ds ms ns) (hd : Assoc.find? name ds = some d)
    (hms : ms.filter (·.1 = name) = []) : ns.filter (·.1 = name) = [] := by
  cases h with
  | added hkey => rwa [filter_insert_of_ne (ne_of_find? hd hkey)]
  | permuted hperm => exact List.nil_perm.1 (hms ▸ hperm.filter _)
  | omitted => rwa [filter_insert_of_ne (ne_of_filter_insert_eq_nil hms)] at hms
  | inside =>
    have hne := ne_of_filter_insert_eq_nil hms
    rwa [filter_insert_of_ne hne] at hms ⊢

/-- The members of a declared name after an edit, if there was one. -/
theorem MemberEdit.filter_eq_singleton {m : String × Json} (h : MemberEdit ds ms ns)
    (hd : Assoc.find? name ds = some d) (hms : ms.filter (·.1 = name) = [m]) :
    ns.filter (·.1 = name) = [m] ∨
      (ns.filter (·.1 = name) = [] ∧ d.IsDefault m.2) ∨
      ∃ w, ns.filter (·.1 = name) = [(name, w)] ∧ d.Edit m.2 w := by
  cases h with
  | added hkey => exact .inl (by rwa [filter_insert_of_ne (ne_of_find? hd hkey)])
  | permuted hperm => exact .inl (List.singleton_perm.1 (hms ▸ hperm.filter _)).symm
  | @omitted before after key v _ hkey hv =>
    -- Under another name nothing changes; under this one it was the only member.
    by_cases heq : key = name
    · subst heq
      cases hkey.symm.trans hd
      obtain ⟨hbefore, hafter, rfl⟩ := filter_insert_eq_singleton hms
      exact .inr (.inl ⟨by rw [List.filter_append, hbefore, hafter]; rfl, hv⟩)
    · rw [filter_insert_of_ne heq] at hms
      exact .inl hms
  | @inside before after key v w _ hkey hv =>
    by_cases heq : key = name
    · subst heq
      cases hkey.symm.trans hd
      obtain ⟨hbefore, hafter, rfl⟩ := filter_insert_eq_singleton hms
      refine .inr (.inr ⟨w, ?_, hv⟩)
      rw [List.filter_append, hbefore, List.filter_cons_of_pos (by simp), hafter]
      rfl
    · rw [filter_insert_of_ne heq] at hms ⊢
      exact .inl hms

/-- The members of another name than that of the one put there. -/
theorem Put.filter_of_ne (h : Put key v ms ns) (hne : key ≠ name) :
    ns.filter (·.1 = name) = ms.filter (·.1 = name) := by
  cases h with
  | replaced => rw [filter_insert_of_ne hne, filter_insert_of_ne hne]
  | inserted => rw [filter_insert_of_ne hne]

/-- The member put there is the only one of its name, if no more than one was there. -/
theorem Put.filter_self (h : Put name v ms ns) (hms : (ms.filter (·.1 = name)).length ≤ 1) :
    ns.filter (·.1 = name) = [(name, v)] := by
  cases h with
  | replaced =>
    rw [List.filter_append, List.filter_cons_of_pos (by simp), List.length_append,
      List.length_cons] at hms
    rw [List.filter_append, List.filter_cons_of_pos (by simp),
      List.eq_nil_of_length_eq_zero (by omega : (List.filter _ _).length = 0), List.nil_append,
      List.eq_nil_of_length_eq_zero (by omega : (List.filter _ _).length = 0)]
  | inserted habsent =>
    have hnil (l : List (String × Json)) (hl : ∀ m ∈ l, m.1 ≠ name) :
        l.filter (·.1 = name) = [] := List.filter_eq_nil_iff.2 (by simpa using hl)
    obtain ⟨hbefore, hafter⟩ := List.forall_mem_append.1 habsent
    rw [List.filter_append, List.filter_cons_of_pos (by simp), hnil _ hbefore, hnil _ hafter]
    rfl

end

/-! ## Readers -/

/-- What reads the same after every edit, where it reads anything. -/
def Keeps (Edit : Json → Json → Prop) (read : Json → Option α) : Prop :=
  ∀ ⦃j j' a⦄, Edit j j' → read j = some a → read j' = some a

theorem keeps_none (read : Json → Option α) : Keeps (fun _ _ => False) read := nofun

theorem Keeps.many {Edit : Json → Json → Prop} {read : Json → Option α} (h : Keeps Edit read) :
    Keeps (Relation.ReflTransGen Edit) read := by
  intro j j' a hedits ha
  induction hedits with
  | refl => exact ha
  | tail _ hedit ih => exact h hedit ih

/-- An item of a list that is read can be replaced by another one that is. -/
theorem exists_mapM_set {f : α → Option β} {xs : List α} {ys : List β} {i : Nat} {x : α}
    (h : xs.mapM f = some ys) (hi : xs[i]? = some x) :
    ∃ y, f x = some y ∧ ys[i]? = some y ∧
      ∀ x' y', f x' = some y' → (xs.set i x').mapM f = some (ys.set i y') := by
  induction xs generalizing i ys with
  | nil => cases hi
  | cons z zs ih =>
    rw [List.mapM_cons] at h
    obtain ⟨b, hb, h⟩ := Option.bind_eq_some_iff.1 h
    obtain ⟨bs, hbs, h⟩ := Option.bind_eq_some_iff.1 h
    cases h
    cases i with
    | zero =>
      cases hi
      refine ⟨b, hb, rfl, fun x' y' hy => ?_⟩
      simp [List.mapM_cons, hy, hbs]
    | succ i =>
      obtain ⟨y, hy, hget, hset⟩ := ih hbs hi
      refine ⟨y, hy, hget, fun x' y' hy' => ?_⟩
      simp [List.mapM_cons, hb, hset x' y' hy']

theorem keeps_asList? {Edit : Json → Json → Prop} {read : Json → Option α} (h : Keeps Edit read) :
    Keeps (ItemEdit Edit) (asList? read) := by
  rintro _ _ as ⟨hi, hedit⟩ has
  obtain ⟨a, ha, hget, hset⟩ := exists_mapM_set has hi
  obtain ⟨hlt, rfl⟩ := List.getElem?_eq_some_iff.1 hget
  have hread := hset _ _ (h hedit ha)
  rwa [List.set_getElem_self] at hread

/-! ## Records -/

namespace Record

/-- Whatever the record reads of the first members, the other record reads, changed, of the
second. -/
def Carries (ms ns : List (String × Json)) (change : α → β) (r : Record α) (r' : Record β) : Prop :=
  ∀ ⦃a rest⦄, r.run (.named ms) = some (a, rest) →
    rest = .named ms ∧ r'.run (.named ns) = some (change a, .named ns)

variable {ms ns : List (String × Json)} {name : String} {read : Json → Option α} {a default : α}

theorem carries_pure {change : α → β} {b : β} (h : change a = b) :
    Carries ms ns change (pure a) (pure b) := by
  intro a' rest hrun
  cases hrun
  exact ⟨rfl, congrArg (fun b => some (b, Fields.named ns)) h.symm⟩

theorem Carries.bind {δ : Type} {change : α → β} {change' : γ → δ} {r : Record α} {r' : Record β}
    {f : α → Record γ} {f' : β → Record δ} (hr : Carries ms ns change r r')
    (hf : ∀ a, Carries ms ns change' (f a) (f' (change a))) :
    Carries ms ns change' (r >>= f) (r' >>= f') := by
  intro c rest hrun
  rw [StateT.run_bind] at hrun
  obtain ⟨⟨a, mid⟩, ha, hc⟩ := Option.bind_eq_some_iff.1 hrun
  obtain ⟨rfl, hb⟩ := hr ha
  obtain ⟨rfl, hd⟩ := hf a hc
  refine ⟨rfl, ?_⟩
  rw [StateT.run_bind, hb]
  exact hd

/-- What is read of the whole object. -/
theorem Carries.read_obj {change : α → β} {r : Record α} {r' : Record β}
    (h : Carries ms ns change r r') (ha : Record.read r (.obj ms) = some a) :
    Record.read r' (.obj ns) = some (change a) := by
  obtain ⟨⟨b, rest⟩, hb, ha⟩ := Option.bind_eq_some_iff.1 ha
  obtain ⟨rfl, hns⟩ := h hb
  cases ha
  exact Option.bind_eq_some_iff.2 ⟨_, hns, rfl⟩

/-- A field with a default is missing, or there once. -/
theorem run_defaulted_eq_some_iff {rest : Fields} :
    (defaulted name read default).run (.named ms) = some (a, rest) ↔
      rest = .named ms ∧ ((ms.filter (·.1 = name) = [] ∧ a = default) ∨
        ∃ m, ms.filter (·.1 = name) = [m] ∧ read m.2 = some a) := by
  simp only [StateT.run, defaulted, field]
  generalize ms.filter (·.1 = name) = occurrences
  rcases occurrences with _ | ⟨m, _ | ⟨m', more⟩⟩
  · simp [eq_comm, and_comm]
  · cases hread : read m.2 <;> simp [hread, eq_comm, and_comm]
  · simp

/-- A field reads the same after an edit of the members. -/
theorem carries_defaulted {ds : Declarations} {Edit : Json → Json → Prop}
    (h : MemberEdit ds ms ns) (hkeeps : Keeps Edit read)
    (hd : Assoc.find? name ds = some (.nested read default Edit)) :
    Carries ms ns id (defaulted name read default) (defaulted name read default) := by
  intro a rest hrun
  obtain ⟨rfl, ⟨hms, rfl⟩ | ⟨m, hms, ha⟩⟩ := run_defaulted_eq_some_iff.1 hrun
  · exact ⟨rfl, run_defaulted_eq_some_iff.2 ⟨rfl, .inl ⟨h.filter_eq_nil hd hms, rfl⟩⟩⟩
  · refine ⟨rfl, run_defaulted_eq_some_iff.2 ⟨rfl, ?_⟩⟩
    rcases h.filter_eq_singleton hd hms with hns | ⟨hns, hdefault⟩ | ⟨w, hns, hedit⟩
    · exact .inr ⟨m, hns, ha⟩
    · exact .inl ⟨hns, Option.some.inj (ha.symm.trans hdefault)⟩
    · exact .inr ⟨(name, w), hns, hkeeps hedit ha⟩

/-- A field that has no edits inside. -/
theorem carries_leaf {ds : Declarations} (h : MemberEdit ds ms ns)
    (hd : Assoc.find? name ds = some (.leaf read default)) :
    Carries ms ns id (defaulted name read default) (defaulted name read default) :=
  carries_defaulted h (keeps_none read) hd

/-- The field whose member was put there. -/
theorem carries_put {v : Json} {b : α} (h : Put name v ms ns) (hv : read v = some b) :
    Carries ms ns (fun _ => b) (defaulted name read default) (defaulted name read default) := by
  intro a rest hrun
  obtain ⟨rfl, hms⟩ := run_defaulted_eq_some_iff.1 hrun
  have hlength : (ms.filter (·.1 = name)).length ≤ 1 := by
    rcases hms with ⟨hms, -⟩ | ⟨m, hms, -⟩
    · simp [hms]
    · simp [hms]
  exact ⟨rfl, run_defaulted_eq_some_iff.2 ⟨rfl, .inr ⟨_, h.filter_self hlength, hv⟩⟩⟩

/-- A field of another member than the one put there. -/
theorem carries_put_of_ne {key : String} {v : Json} (h : Put key v ms ns) (hne : key ≠ name) :
    Carries ms ns id (defaulted name read default) (defaulted name read default) := by
  intro a rest hrun
  obtain ⟨rfl, hms⟩ := run_defaulted_eq_some_iff.1 hrun
  rw [← h.filter_of_ne hne] at hms
  exact ⟨rfl, run_defaulted_eq_some_iff.2 ⟨rfl, hms⟩⟩

/-- A record keeps the edits that its fields carry. -/
theorem keeps_read {ds : Declarations} {r : Record α}
    (h : ∀ ms ns, MemberEdit ds ms ns → Carries ms ns id r r) :
    Keeps (RecordEdit ds) (Record.read r) := by
  rintro _ _ a ⟨hedit⟩ ha
  exact (h _ _ hedit).read_obj ha

end Record

end SparkLedger.Json

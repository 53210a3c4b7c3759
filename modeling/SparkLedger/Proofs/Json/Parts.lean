import SparkLedger.Json.Basic

/-!
# The parts of a document

Predicates that hold of a document because something holds of every part of it.

* `partsInduction`: what holds of a document once it holds of its items and members holds of all.
* `at?`: the part at the end of a path of members.
* `Everywhere`: a property of every part, the document itself included; `everywhere_arr` and
  `everywhere_obj` open it.
* `IsValue`: the documents that are values: keys ascend in every object, and every part denotes
  something. `isValue_of_normal?` and `normal?_of_isValue` say that these are the normal forms.
* `same_comm`, `same_obj_iff`, `eq_of_same`: equality of values is symmetric, is decided key by key,
  and is equality where there is no float.
-/

namespace SparkLedger.Json

/-! ## Induction -/

/-- Induction over the parts of a document. -/
@[elab_as_elim]
theorem partsInduction {motive : Json → Prop}
    (null : motive .null) (bool : ∀ b, motive (.bool b)) (int : ∀ i, motive (.int i))
    (float : ∀ f, motive (.float f)) (str : ∀ s, motive (.str s))
    (arr : ∀ xs, (∀ x ∈ xs, motive x) → motive (.arr xs))
    (obj : ∀ ms, (∀ m ∈ ms, motive m.2) → motive (.obj ms))
    (unreadable : motive .unreadable) (disguised : ∀ j, motive j → motive (.disguised j))
    (j : Json) : motive j := by
  refine @Json.rec motive (fun xs => ∀ x ∈ xs, motive x) (fun ms => ∀ m ∈ ms, motive m.2)
    (fun m => motive m.2) null bool int float str arr obj unreadable disguised ?_ ?_ ?_ ?_ ?_ j
  · exact fun x hx => absurd hx List.not_mem_nil
  · exact fun x xs hx hxs => List.forall_mem_cons.2 ⟨hx, hxs⟩
  · exact fun m hm => absurd hm List.not_mem_nil
  · exact fun m ms hm hms => List.forall_mem_cons.2 ⟨hm, hms⟩
  · exact fun _ _ h => h

/-! ## Paths -/

/-- The value at the end of a path of members. -/
def at? (j : Json) : List String → Option Json
  | [] => some j
  | key :: path => (j.member? key).bind (·.at? path)

theorem at?_append (j : Json) (path path' : List String) :
    j.at? (path ++ path') = (j.at? path).bind (·.at? path') := by
  induction path generalizing j with
  | nil => rfl
  | cons key path ih => simp [at?, ih, Option.bind_assoc]

theorem at?_singleton (j : Json) (key : String) : j.at? [key] = j.member? key :=
  Option.bind_fun_some ..

/-! ## Properties of every part -/

mutual

/-- Every part of the document has the property. -/
def Everywhere (p : Json → Prop) : Json → Prop
  | .arr xs => p (.arr xs) ∧ EveryItem p xs
  | .obj ms => p (.obj ms) ∧ EveryMember p ms
  | .disguised j => p (.disguised j) ∧ Everywhere p j
  | j => p j

/-- Every part of every item has the property. -/
def EveryItem (p : Json → Prop) : List Json → Prop
  | [] => True
  | x :: xs => Everywhere p x ∧ EveryItem p xs

/-- Every part of every member has the property. -/
def EveryMember (p : Json → Prop) : List (String × Json) → Prop
  | [] => True
  | (_, x) :: ms => Everywhere p x ∧ EveryMember p ms

end

section

variable {p q : Json → Prop}

private theorem everyItem_iff {xs : List Json} : EveryItem p xs ↔ ∀ x ∈ xs, Everywhere p x := by
  induction xs with
  | nil => simp [EveryItem]
  | cons x xs ih => rw [EveryItem, ih, List.forall_mem_cons]

private theorem everyMember_iff {ms : List (String × Json)} :
    EveryMember p ms ↔ ∀ m ∈ ms, Everywhere p m.2 := by
  induction ms with
  | nil => simp [EveryMember]
  | cons m ms ih => rw [EveryMember, ih, List.forall_mem_cons]

theorem everywhere_arr {xs : List Json} :
    Everywhere p (.arr xs) ↔ p (.arr xs) ∧ ∀ x ∈ xs, Everywhere p x := by
  rw [Everywhere, everyItem_iff]

theorem everywhere_obj {ms : List (String × Json)} :
    Everywhere p (.obj ms) ↔ p (.obj ms) ∧ ∀ m ∈ ms, Everywhere p m.2 := by
  rw [Everywhere, everyMember_iff]

theorem Everywhere.self {j : Json} (h : Everywhere p j) : p j := by
  cases j with
  | arr xs => exact (everywhere_arr.1 h).1
  | obj ms => exact (everywhere_obj.1 h).1
  | disguised j => exact h.1
  | _ => exact h

theorem Everywhere.mono (hpq : ∀ j, p j → q j) {j : Json} (h : Everywhere p j) :
    Everywhere q j := by
  induction j using partsInduction with
  | arr xs ih =>
    obtain ⟨hp, hxs⟩ := everywhere_arr.1 h
    exact everywhere_arr.2 ⟨hpq _ hp, fun x hx => ih x hx (hxs x hx)⟩
  | obj ms ih =>
    obtain ⟨hp, hms⟩ := everywhere_obj.1 h
    exact everywhere_obj.2 ⟨hpq _ hp, fun m hm => ih m hm (hms m hm)⟩
  | disguised j ih => exact ⟨hpq _ h.1, ih h.2⟩
  | _ => exact hpq _ h

end

/-! ## Values -/

/-- What a value has in each part: members in order, and a meaning. -/
def InForm : Json → Prop
  | .obj ms => Assoc.Ascending ms
  | .unreadable | .disguised _ => False
  | _ => True

/-- The document is a value: keys ascend in every object, and every part denotes something. -/
def IsValue : Json → Prop := Everywhere InForm

theorem isValue_arr {xs : List Json} : IsValue (.arr xs) ↔ ∀ x ∈ xs, IsValue x := by
  simp [IsValue, everywhere_arr, InForm]

theorem isValue_obj {ms : List (String × Json)} :
    IsValue (.obj ms) ↔ Assoc.Ascending ms ∧ ∀ m ∈ ms, IsValue m.2 :=
  everywhere_obj

theorem IsValue.member {ms : List (String × Json)} (h : IsValue (.obj ms)) {k : String} {v : Json}
    (hv : Assoc.find? k ms = some v) : IsValue v :=
  (isValue_obj.1 h).2 _ (Assoc.mem_of_find? hv)

private theorem normalItems?_of_isValue {xs : List Json} (h : ∀ x ∈ xs, normal? x = some x) :
    normalItems? xs = some xs := by
  induction xs with
  | nil => rfl
  | cons x xs ih =>
    obtain ⟨hx, hxs⟩ := List.forall_mem_cons.1 h
    simp [normalItems?, hx, ih hxs]

private theorem normalMembers?_of_isValue {ms : List (String × Json)}
    (h : ∀ m ∈ ms, normal? m.2 = some m.2) : normalMembers? ms = some ms := by
  induction ms with
  | nil => rfl
  | cons m ms ih =>
    obtain ⟨hm, hms⟩ := List.forall_mem_cons.1 h
    simp [normalMembers?, hm, ih hms]

/-- A value is its own normal form. -/
theorem normal?_of_isValue {j : Json} (h : IsValue j) : normal? j = some j := by
  induction j using partsInduction with
  | arr xs ih =>
    have hxs := isValue_arr.1 h
    rw [normal?, normalItems?_of_isValue fun x hx => ih x hx (hxs x hx)]
    rfl
  | obj ms ih =>
    obtain ⟨hasc, hms⟩ := isValue_obj.1 h
    rw [normal?, normalMembers?_of_isValue fun m hm => ih m hm (hms m hm)]
    have := congrArg SortedMap.toList (SortedMap.ofList_toList (⟨ms, hasc⟩ : SortedMap String Json))
    simpa using this
  | unreadable => exact absurd h.self id
  | disguised j _ => exact absurd h.self id
  | _ => rfl

private theorem isValue_of_normalItems? {xs ys : List Json} (h : normalItems? xs = some ys)
    (ih : ∀ x ∈ xs, ∀ v, normal? x = some v → IsValue v) : ∀ y ∈ ys, IsValue y := by
  induction xs generalizing ys with
  | nil => simp_all [normalItems?]
  | cons x xs ihxs =>
    obtain ⟨hx, hxs⟩ := List.forall_mem_cons.1 ih
    simp only [normalItems?, Option.bind_eq_bind, Option.bind_eq_some_iff] at h
    obtain ⟨v, hv, vs, hvs, hys⟩ := h
    cases hys
    exact List.forall_mem_cons.2 ⟨hx v hv, ihxs hvs hxs⟩

private theorem isValue_of_normalMembers? {ms ns : List (String × Json)}
    (h : normalMembers? ms = some ns) (ih : ∀ m ∈ ms, ∀ v, normal? m.2 = some v → IsValue v) :
    ∀ n ∈ ns, IsValue n.2 := by
  induction ms generalizing ns with
  | nil => simp_all [normalMembers?]
  | cons m ms ihms =>
    obtain ⟨hm, hms⟩ := List.forall_mem_cons.1 ih
    simp only [normalMembers?, Option.bind_eq_bind, Option.bind_eq_some_iff] at h
    obtain ⟨v, hv, vs, hvs, hns⟩ := h
    cases hns
    exact List.forall_mem_cons.2 ⟨hm v hv, ihms hvs hms⟩

/-- The normal form of a document is a value. -/
theorem isValue_of_normal? {j v : Json} (h : normal? j = some v) : IsValue v := by
  induction j using partsInduction generalizing v with
  | arr xs ih =>
    rw [normal?] at h
    obtain ⟨ys, hys, rfl⟩ := Option.map_eq_some_iff.1 h
    exact isValue_arr.2 (isValue_of_normalItems? hys fun x hx v hv => ih x hx hv)
  | obj ms ih =>
    rw [normal?] at h
    obtain ⟨ns, hns, rfl⟩ := Option.map_eq_some_iff.1 h
    have hvals := isValue_of_normalMembers? hns fun m hm v hv => ih m hm hv
    exact isValue_obj.2 ⟨(SortedMap.ofList ns).ascending,
      fun m hm => hvals m (SortedMap.mem_of_mem_ofList hm)⟩
  | unreadable => cases h
  | disguised j ih => exact ih h
  | _ => cases h; trivial

/-! ## Equality of values -/

private theorem eq_none_iff_of_rel {α β : Type} {r : α → β → Prop} {a : Option α} {b : Option β}
    (h : Option.Rel r a b) : a = none ↔ b = none := by
  cases h <;> simp

/-- Two ascending lists of members are equal if they have equal values under every key. -/
theorem sameMembers_of_find? {ms ns : List (String × Json)} (hm : Assoc.Ascending ms)
    (hn : Assoc.Ascending ns)
    (h : ∀ k, Option.Rel (fun a b => a.same b = true) (Assoc.find? k ms) (Assoc.find? k ns)) :
    sameMembers ms ns = true := by
  induction ms generalizing ns with
  | nil =>
    cases ns with
    | nil => rfl
    | cons n ns =>
      have := h n.1
      rw [Assoc.find?_cons, if_pos rfl] at this
      cases this
  | cons m ms ih =>
    obtain ⟨k, v⟩ := m
    cases ns with
    | nil =>
      have := h k
      rw [Assoc.find?_cons, if_pos rfl] at this
      cases this
    | cons n ns =>
      obtain ⟨k', w⟩ := n
      obtain rfl : k = k' := hm.head_eq hn fun j => eq_none_iff_of_rel (h j)
      have hvw := h k
      simp only [Assoc.find?_cons, ↓reduceIte] at hvw
      cases hvw with
      | some hvw =>
        have hrest : sameMembers ms ns = true := by
          refine ih (List.pairwise_cons.1 hm).2 (List.pairwise_cons.1 hn).2 fun j => ?_
          by_cases hj : k = j
          · subst hj
            rw [hm.distinct.find?_tail, hn.distinct.find?_tail]
            exact .none
          · simpa [Assoc.find?_cons, hj] using h j
        simp [sameMembers, hvw, hrest]

private theorem rel_find?_of_sameMembers {ms ns : List (String × Json)}
    (h : sameMembers ms ns = true) (k : String) :
    Option.Rel (fun a b => a.same b = true) (Assoc.find? k ms) (Assoc.find? k ns) := by
  induction ms generalizing ns with
  | nil =>
    cases ns with
    | nil => exact .none
    | cons n ns => cases h
  | cons m ms ih =>
    cases ns with
    | nil => cases h
    | cons n ns =>
      obtain ⟨h₁, h₂⟩ := Bool.and_eq_true_iff.1 h
      obtain ⟨hk, hv⟩ := Bool.and_eq_true_iff.1 h₁
      rw [Assoc.find?_cons, Assoc.find?_cons, eq_of_beq hk]
      split
      · exact .some hv
      · exact ih h₂

/-- Two objects are equal exactly if they have equal values under every key. -/
theorem same_obj_iff {ms ns : List (String × Json)} (hm : Assoc.Ascending ms)
    (hn : Assoc.Ascending ns) :
    (obj ms).same (.obj ns) = true ↔
      ∀ k, Option.Rel (fun a b => a.same b = true) (Assoc.find? k ms) (Assoc.find? k ns) :=
  ⟨rel_find?_of_sameMembers, sameMembers_of_find? hm hn⟩

private theorem sameItems_comm {xs : List Json} (h : ∀ x ∈ xs, ∀ y, x.same y = y.same x)
    (ys : List Json) : sameItems xs ys = sameItems ys xs := by
  induction xs generalizing ys with
  | nil => cases ys <;> rfl
  | cons x xs ih =>
    obtain ⟨hx, hxs⟩ := List.forall_mem_cons.1 h
    cases ys with
    | nil => rfl
    | cons y ys => rw [sameItems, sameItems, hx y, ih hxs ys]

private theorem sameMembers_comm {ms : List (String × Json)}
    (h : ∀ m ∈ ms, ∀ j, m.2.same j = j.same m.2) (ns : List (String × Json)) :
    sameMembers ms ns = sameMembers ns ms := by
  induction ms generalizing ns with
  | nil => cases ns <;> rfl
  | cons m ms ih =>
    obtain ⟨hm, hms⟩ := List.forall_mem_cons.1 h
    cases ns with
    | nil => rfl
    | cons n ns => rw [sameMembers, sameMembers, hm n.2, ih hms ns, BEq.comm]

theorem same_comm (a b : Json) : a.same b = b.same a := by
  induction a using partsInduction generalizing b with
  | float f =>
    cases b with
    | float g => simp only [same, Binary64.same, BEq.comm (a := f.bits), Bool.and_comm]
    | _ => rfl
  | arr xs ih =>
    cases b with
    | arr ys => rw [same, same, sameItems_comm ih]
    | _ => rfl
  | obj ms ih =>
    cases b with
    | obj ns => rw [same, same, sameMembers_comm ih]
    | _ => rfl
  | disguised a ih =>
    cases b with
    | disguised b => rw [same, same, ih]
    | _ => rfl
  | null | unreadable => cases b <;> rfl
  | bool | int | str => cases b <;> simp only [same, BEq.comm]

private theorem eq_of_sameItems {xs : List Json}
    (h : ∀ x ∈ xs, ∀ y, x.same y = true → x = y) {ys : List Json}
    (hxy : sameItems xs ys = true) : xs = ys := by
  induction xs generalizing ys with
  | nil => cases ys <;> simp_all [sameItems]
  | cons x xs ih =>
    obtain ⟨hx, hxs⟩ := List.forall_mem_cons.1 h
    cases ys with
    | nil => cases hxy
    | cons y ys =>
      obtain ⟨h₁, h₂⟩ := Bool.and_eq_true_iff.1 hxy
      rw [hx y h₁, ih hxs h₂]

private theorem eq_of_sameMembers {ms : List (String × Json)}
    (h : ∀ m ∈ ms, ∀ j, m.2.same j = true → m.2 = j) {ns : List (String × Json)}
    (hmn : sameMembers ms ns = true) : ms = ns := by
  induction ms generalizing ns with
  | nil => cases ns <;> simp_all [sameMembers]
  | cons m ms ih =>
    obtain ⟨hm, hms⟩ := List.forall_mem_cons.1 h
    cases ns with
    | nil => cases hmn
    | cons n ns =>
      obtain ⟨h₁, h₂⟩ := Bool.and_eq_true_iff.1 hmn
      obtain ⟨hk, hv⟩ := Bool.and_eq_true_iff.1 h₁
      rw [ih hms h₂, Prod.ext (eq_of_beq hk) (hm n.2 hv)]

/-- Where there is no float, equality of values is equality. -/
theorem eq_of_same {a b : Json} (ha : Everywhere (∀ f, · ≠ .float f) a) (h : a.same b = true) :
    a = b := by
  induction a using partsInduction generalizing b with
  | float f => exact absurd rfl (ha f)
  | arr xs ih =>
    cases b with
    | arr ys =>
      have hxs := (everywhere_arr.1 ha).2
      rw [eq_of_sameItems (fun x hx y hxy => ih x hx (hxs x hx) hxy) h]
    | _ => cases h
  | obj ms ih =>
    cases b with
    | obj ns =>
      have hms := (everywhere_obj.1 ha).2
      rw [eq_of_sameMembers (fun m hm j hj => ih m hm (hms m hm) hj) h]
    | _ => cases h
  | disguised a ih =>
    cases b with
    | disguised b => rw [ih ha.2 h]
    | _ => cases h
  | null | unreadable => cases b <;> first | rfl | cases h
  | bool | int | str => cases b <;> simp_all [same]

end SparkLedger.Json

import SparkLedger.Proofs.Json.Follows

/-!
# Documents with further members

A document may have members besides those that are written here, in any of its objects. A
difference says nothing of them, so they outlast every change of what is written, as long as the
objects that they are in stay.

* `extend`: a document with further members, given by the paths of the objects they are in.
* `exists_extend_eq`: an extended object, key by key.
* `merge_diff_extend`: a difference, applied to an extended document, gives the second document
  with the same extension.
* `at?_extend`: the members that were added, and where they are.
-/

namespace SparkLedger.Json

/-- Members for the objects of a document, by the paths of the objects. -/
abbrev Extras := List String → SortedMap String Json

namespace Extras

/-- What there is for the objects below a member. -/
def under (e : Extras) (key : String) : Extras := fun path => e (key :: path)

/-- There are none. -/
def Empty (e : Extras) : Prop := ∀ path k, (e path).find? k = none

/-- Wherever there are members for an object, the document has an object. -/
def Placed (e : Extras) (j : Json) : Prop :=
  ∀ path k v, (e path).find? k = some v → ∃ ms, j.at? path = some (.obj ms)

/-- The objects of the document do not have these members. -/
def NewIn (e : Extras) (j : Json) : Prop :=
  ∀ path k v, (e path).find? k = some v → j.at? (path ++ [k]) = none

end Extras

mutual

/-- The document with further members in its objects. Arrays stay as they are. -/
def extend (e : Extras) : Json → Json
  | .obj ms => .obj (SortedMap.ofList (extendMembers e ms ++ (e []).toList)).toList
  | j => j

/-- The members with further members in the objects among them. -/
def extendMembers (e : Extras) : List (String × Json) → List (String × Json)
  | [] => []
  | (k, v) :: ms => (k, extend (e.under k) v) :: extendMembers e ms

end

variable {e : Extras} {j old new : Json} {ms : List (String × Json)}

namespace Extras

theorem Placed.under (h : e.Placed (.obj ms)) {key : String} (hj : Assoc.find? key ms = some j) :
    (e.under key).Placed j := by
  intro path k v hv
  obtain ⟨ns, hns⟩ := h (key :: path) k v hv
  rw [at?, member?, hj] at hns
  exact ⟨ns, hns⟩

theorem NewIn.under (h : e.NewIn (.obj ms)) {key : String} (hj : Assoc.find? key ms = some j) :
    (e.under key).NewIn j := by
  intro path k v hv
  have hnone := h (key :: path) k v hv
  rwa [List.cons_append, at?, member?, hj] at hnone

theorem NewIn.find?_eq_none (h : e.NewIn (.obj ms)) {k : String} {v : Json}
    (hv : (e []).find? k = some v) : Assoc.find? k ms = none := by
  have hnone := h [] k v hv
  rwa [List.nil_append, at?_singleton] at hnone

/-- There are no members for the objects below a member that the document does not have. -/
theorem Placed.empty_under (h : e.Placed (.obj ms)) {key : String}
    (hnone : Assoc.find? key ms = none) : (e.under key).Empty := by
  refine fun path k => Option.eq_none_iff_forall_ne_some.2 fun v hv => ?_
  obtain ⟨ns, hns⟩ := h (key :: path) k v hv
  rw [at?, member?, hnone] at hns
  cases hns

/-- There are no members for a document that is no object. -/
theorem Placed.empty (h : e.Placed j) (hj : ∀ ms, j ≠ .obj ms) : e.Empty := by
  refine fun path k => Option.eq_none_iff_forall_ne_some.2 fun v hv => ?_
  obtain ⟨ns, hns⟩ := h path k v hv
  cases path with
  | nil => exact hj ns (Option.some.inj hns)
  | cons key path =>
    cases j with
    | obj ms => exact hj ms rfl
    | _ => cases hns

end Extras

/-! ## One object -/

private theorem extendMembers_eq (e : Extras) (ms : List (String × Json)) :
    extendMembers e ms = ms.map fun m => (m.1, extend (e.under m.1) m.2) := by
  induction ms with
  | nil => rfl
  | cons m ms ih => rw [extendMembers, ih, List.map_cons]

private theorem find?_extendMembers (e : Extras) (ms : List (String × Json)) (k : String) :
    Assoc.find? k (extendMembers e ms) = (Assoc.find? k ms).map (extend (e.under k)) := by
  rw [extendMembers_eq]
  exact Assoc.find?_map (fun k => extend (e.under k)) k ms

/-- An extended object has what it had, extended, and what is new. -/
theorem exists_extend_eq (h : Assoc.Distinct ms)
    (hnew : ∀ k v, (e []).find? k = some v → Assoc.find? k ms = none) :
    ∃ xs, extend e (.obj ms) = .obj xs ∧ Assoc.Ascending xs ∧ ∀ k, Assoc.find? k xs =
      ((Assoc.find? k ms).map (extend (e.under k))).or ((e []).find? k) := by
  have hdistinct : Assoc.Distinct (extendMembers e ms ++ (e []).toList) := by
    have hkeys : Assoc.Distinct (extendMembers e ms) := by
      rw [extendMembers_eq]
      exact (Assoc.distinct_map fun k => extend (e.under k)).2 h
    refine List.pairwise_append.2 ⟨hkeys, (e []).ascending.distinct, fun a ha b hb heq => ?_⟩
    have hb := hnew b.1 b.2 (SortedMap.mem_toList_iff.1 hb)
    have ha := hkeys.find?_eq_of_mem ha
    rw [find?_extendMembers, heq, hb] at ha
    cases ha
  refine ⟨_, by rw [extend], SortedMap.ascending _, fun k => ?_⟩
  have hfind := SortedMap.find?_ofList hdistinct k
  rw [Assoc.find?_append, find?_extendMembers] at hfind
  exact hfind

/-- Without further members the document stays as it is. -/
theorem extend_of_empty (he : e.Empty) (hj : IsValue j) : extend e j = j := by
  induction j using partsInduction generalizing e with
  | obj ms ih =>
    obtain ⟨hasc, hvals⟩ := isValue_obj.1 hj
    obtain ⟨xs, heq, hxs, hfind⟩ := exists_extend_eq (e := e) hasc.distinct fun k v hv => by
      rw [he] at hv
      cases hv
    rw [heq]
    refine congrArg Json.obj (hxs.ext_find? hasc fun k => ?_)
    rw [hfind, he, Option.or_none]
    cases hk : Assoc.find? k ms with
    | none => rfl
    | some v =>
      have hm := Assoc.mem_of_find? hk
      exact congrArg some (ih _ hm (fun path => he (k :: path)) (hvals _ hm))
  | _ => simp [extend]

/-! ## Paths -/

/-- An object of an extended document has what it had, extended, and what is new. -/
theorem exists_at?_extend (hj : IsValue j) (hnew : e.NewIn j) {path : List String}
    (hpath : j.at? path = some (.obj ms)) :
    ∃ xs, (extend e j).at? path = some (.obj xs) ∧ ∀ k, Assoc.find? k xs =
      ((Assoc.find? k ms).map (extend fun rest => e (path ++ k :: rest))).or
        ((e path).find? k) := by
  induction path generalizing e j with
  | nil =>
    cases hpath
    obtain ⟨xs, heq, -, hfind⟩ := exists_extend_eq (isValue_obj.1 hj).1.distinct
      fun _ _ => hnew.find?_eq_none
    exact ⟨xs, congrArg some heq, hfind⟩
  | cons key path ih =>
    cases j with
    | obj ns =>
      rw [at?, Option.bind_eq_some_iff] at hpath
      obtain ⟨v, hv, hpath⟩ := hpath
      obtain ⟨ys, heq, -, hfind⟩ := exists_extend_eq (isValue_obj.1 hj).1.distinct
        fun _ _ => hnew.find?_eq_none
      have hkey : Assoc.find? key ys = some (extend (e.under key) v) := by
        rw [hfind, show Assoc.find? key ns = some v from hv]
        rfl
      rw [heq, at?, member?, hkey]
      exact ih (hj.member hv) (hnew.under hv) hpath
    | _ => cases hpath

/-- The members that were added are there. -/
theorem at?_extend (hj : IsValue j) (hplaced : e.Placed j) (hnew : e.NewIn j)
    {path : List String} {k : String} {v : Json} (hv : (e path).find? k = some v) :
    (extend e j).at? (path ++ [k]) = some v := by
  obtain ⟨ms, hpath⟩ := hplaced path k v hv
  obtain ⟨xs, hxs, hfind⟩ := exists_at?_extend hj hnew hpath
  have hnone : Assoc.find? k ms = none := by
    have hnone := hnew path k v hv
    rwa [at?_append, hpath, Option.bind_some, at?_singleton] at hnone
  rw [at?_append, hxs, Option.bind_some, at?_singleton, member?, hfind, hnone, hv]
  rfl

/-! ## Differences -/

/-- A member of an extended object after a difference. -/
private theorem mergedMember_extend {x y own : Option Json}
    (hx : x = none → e.Empty) (hown : own.isSome → x = none ∧ y = none)
    (hxplain : ∀ v, x = some v → Plain v) (hyplain : ∀ w, y = some w → Plain w)
    (ih : ∀ v w, x = some v → y = some w → (diff v w).merge (extend e v) = extend e w) :
    mergedMember (diffMember x y) ((x.map (extend e)).or own) = (y.map (extend e)).or own := by
  cases own with
  | some own =>
    -- A member that was added is in neither of the two, so the difference leaves it alone.
    obtain ⟨rfl, rfl⟩ := hown rfl
    rfl
  | none =>
    rw [Option.or_none, Option.or_none]
    cases y with
    | none => cases x <;> rfl
    | some w =>
      have hw := hyplain w rfl
      cases x with
      | none =>
        rw [diffMember, mergedMember_some hw.ne_null, Option.map_some,
          extend_of_empty (hx rfl) hw.isValue]
        exact congrArg some
          (merge_of_members_eq_nil hw.isValue (noNullMember_of_plain hw) rfl)
      | some v =>
        rw [diffMember]
        split
        · rename_i hsame
          rw [eq_of_same_of_plain (hxplain v rfl) hsame]
          rfl
        · rw [mergedMember_some (diff_ne_null hw.ne_null v)]
          exact congrArg some (ih v w rfl rfl)

/-- A difference, applied to the first document with further members, gives the second one with
these. -/
theorem merge_diff_extend (hold : Plain old) (hnew : Plain new) (hplaced : e.Placed old)
    (hold' : e.NewIn old) (hnew' : e.NewIn new) :
    (diff old new).merge (extend e old) = extend e new := by
  induction new using partsInduction generalizing old e with
  | obj ns ih =>
    cases old with
    | obj ms =>
      obtain ⟨hms, -⟩ := plain_obj.1 hold
      obtain ⟨hns, -⟩ := plain_obj.1 hnew
      obtain ⟨xs, hxs, hxasc, hxfind⟩ := exists_extend_eq hms.distinct
        fun _ _ => hold'.find?_eq_none
      obtain ⟨ys, hys, hyasc, hyfind⟩ := exists_extend_eq hns.distinct
        fun _ _ => hnew'.find?_eq_none
      rw [hxs, hys, merge_diff_obj]
      refine congrArg Json.obj ((ascending_mergeMembers _ hxasc).ext_find? hyasc fun k => ?_)
      refine (find?_changedMembers hms.distinct hns.distinct xs k).trans ?_
      rw [hxfind, hyfind]
      refine mergedMember_extend hplaced.empty_under (fun hown => ?_) (fun _ => hold.member)
        (fun _ => hnew.member) fun v w hv hw => ?_
      · obtain ⟨own, hown⟩ := Option.isSome_iff_exists.1 hown
        exact ⟨hold'.find?_eq_none hown, hnew'.find?_eq_none hown⟩
      · exact ih _ (Assoc.mem_of_find? hw) (hold.member hv) (hnew.member hw)
          (hplaced.under hv) (hold'.under hv) (hnew'.under hw)
    | _ =>
      have he := hplaced.empty nofun
      rw [extend_of_empty he hold.isValue, extend_of_empty he hnew.isValue]
      exact eq_of_same_of_plain hnew
        (merge_diff_same hold.isValue hnew.isValue (noNullMember_of_plain hnew)).2
  | _ => cases old <;> simp [diff, merge, extend]

end SparkLedger.Json

import SparkLedger.Json.MergePatch
import SparkLedger.Proofs.Json.Parts

/-!
# Merge patches, member by member

What a merge patch does and what a difference says, one key at a time, and that the two fit.

* `find?_mergeMembers`, `member?_merge`: a key after a patch depends on that key only, by
  `mergedMember`.
* `find?_diff`: what a difference says of a key depends on that key only, by `diffMember`.
* `isEmptyPatch_diff_iff`: the difference of two objects says nothing exactly if they are equal.
* `merge_of_members_eq_nil`: a patch without null members, applied to something that has no
  members, gives itself.
* `merge_diff_same`: the difference of two values, applied to the first, gives the second, unless
  the second has a member that is null. In a patch such a member means absence.
-/

namespace SparkLedger.Json

/-! ## Null members -/

mutual

/-- No object that is reached through members only has a null member. -/
def NoNullMember : Json → Prop
  | .obj ms => NoNullAmong ms
  | _ => True

/-- None of the members is null, and none has a null member. -/
def NoNullAmong : List (String × Json) → Prop
  | [] => True
  | (_, v) :: ms => (v ≠ .null ∧ NoNullMember v) ∧ NoNullAmong ms

end

theorem noNullMember_obj {ms : List (String × Json)} :
    NoNullMember (.obj ms) ↔ ∀ m ∈ ms, m.2 ≠ .null ∧ NoNullMember m.2 := by
  rw [NoNullMember]
  induction ms with
  | nil => simp [NoNullAmong]
  | cons m ms ih => rw [NoNullAmong, ih, List.forall_mem_cons]

/-! ## One member of a patch -/

/-- A member after the member of a merge patch with its key. -/
def mergedMember : Option Json → Option Json → Option Json
  | none, stored => stored
  | some .null, _ => none
  | some v, stored => some (merge v (stored.getD .null))

theorem mergedMember_some {v : Json} (hv : v ≠ .null) (stored : Option Json) :
    mergedMember (some v) stored = some (merge v (stored.getD .null)) := by
  cases v <;> first | rfl | exact absurd rfl hv

/-- Members with one key set, or dropped. -/
def setMember (k : String) (v : Option Json) (ms : List (String × Json)) : List (String × Json) :=
  match v with
  | none => Assoc.erase k ms
  | some v => Assoc.insert k v ms

theorem find?_setMember (k k' : String) (v : Option Json) (ms : List (String × Json)) :
    Assoc.find? k' (setMember k v ms) = if k = k' then v else Assoc.find? k' ms := by
  cases v with
  | none => simp only [setMember, Assoc.find?_erase, eq_comm]
  | some v => exact Assoc.find?_insert k k' v ms

theorem ascending_setMember {ms : List (String × Json)} (h : Assoc.Ascending ms) (k : String)
    (v : Option Json) : Assoc.Ascending (setMember k v ms) := by
  cases v with
  | none => exact h.erase k
  | some v => exact h.insert k v

theorem mergeMembers_cons (k : String) (v : Json) (rest stored : List (String × Json)) :
    mergeMembers ((k, v) :: rest) stored =
      mergeMembers rest (setMember k (mergedMember (some v) (Assoc.find? k stored)) stored) := by
  cases v <;> simp [mergeMembers, mergedMember, setMember]

theorem ascending_mergeMembers (patch : List (String × Json)) {stored : List (String × Json)}
    (h : Assoc.Ascending stored) : Assoc.Ascending (mergeMembers patch stored) := by
  induction patch generalizing stored with
  | nil => simpa only [mergeMembers] using h
  | cons m rest ih =>
    rw [mergeMembers_cons]
    exact ih (ascending_setMember h _ _)

/-- What a patch does to one key. -/
theorem find?_mergeMembers {patch : List (String × Json)} (h : Assoc.Distinct patch)
    (stored : List (String × Json)) (k : String) :
    Assoc.find? k (mergeMembers patch stored) =
      mergedMember (Assoc.find? k patch) (Assoc.find? k stored) := by
  induction patch generalizing stored with
  | nil => rw [mergeMembers]; rfl
  | cons m rest ih =>
    obtain ⟨k₀, v⟩ := m
    rw [mergeMembers_cons, ih (List.pairwise_cons.1 h).2, find?_setMember, Assoc.find?_cons]
    by_cases hk : k₀ = k
    · subst hk
      rw [if_pos rfl, if_pos rfl, h.find?_tail]
      rfl
    · rw [if_neg hk, if_neg hk]

theorem member?_merge {d : List (String × Json)} (hd : Assoc.Distinct d) (j : Json) (k : String) :
    ((Json.obj d).merge j).member? k = mergedMember (Assoc.find? k d) (j.member? k) := by
  rw [merge, member?, find?_mergeMembers hd]
  cases j <;> rfl

/-- A patch that is no object replaces what is stored. -/
theorem merge_of_ne_obj {patch : Json} (h : ∀ ms, patch ≠ .obj ms) (stored : Json) :
    patch.merge stored = patch := by
  cases patch with
  | obj ms => exact absurd rfl (h ms)
  | _ => simp [merge]

/-- A patch without null members, applied to what has no members, gives itself. -/
theorem merge_of_members_eq_nil {w : Json} (hw : IsValue w) (hnull : NoNullMember w) {s : Json}
    (hs : s.members = []) : merge w s = w := by
  induction w using partsInduction generalizing s with
  | obj ns ih =>
    obtain ⟨hasc, hvals⟩ := isValue_obj.1 hw
    have hnn := noNullMember_obj.1 hnull
    rw [merge, hs]
    congr 1
    refine (ascending_mergeMembers ns .nil).ext_find? hasc fun k => ?_
    rw [find?_mergeMembers hasc.distinct]
    cases hk : Assoc.find? k ns with
    | none => rfl
    | some v =>
      have hm := Assoc.mem_of_find? hk
      obtain ⟨hv, hvnull⟩ := hnn _ hm
      rw [mergedMember_some hv]
      exact congrArg some (ih _ hm (hvals _ hm) hvnull rfl)
  | _ => simp [merge]

/-! ## One member of a difference -/

/-- What is no object is given whole. -/
theorem diff_of_ne_obj {new : Json} (h : ∀ ms, new ≠ .obj ms) (old : Json) :
    diff old new = new := by
  cases new with
  | obj ms => exact absurd rfl (h ms)
  | _ => cases old <;> rfl

theorem diff_ne_null {new : Json} (h : new ≠ .null) (old : Json) : diff old new ≠ .null := by
  cases old <;> cases new <;> simp_all [diff]

/-- What a difference says of a key, from its values before and after. -/
def diffMember : Option Json → Option Json → Option Json
  | none, new => new
  | some _, none => some .null
  | some v, some w => if w.same v then none else some (diff v w)

/-- A difference says nothing of a key exactly if both have nothing or equal values under it. -/
theorem diffMember_eq_none_iff {v w : Option Json} :
    diffMember v w = none ↔ Option.Rel (fun v w => v.same w = true) v w := by
  cases v with
  | none =>
    cases w with
    | none => exact iff_of_true rfl .none
    | some w => exact iff_of_false nofun nofun
  | some v =>
    cases w with
    | none => exact iff_of_false nofun nofun
    | some w =>
      rw [diffMember, same_comm w v]
      split
      · rename_i hsame
        exact iff_of_true rfl (.some hsame)
      · rename_i hsame
        refine iff_of_false nofun fun h => ?_
        cases h with
        | some h => exact hsame h

theorem diffMember_self (v : Option Json) : diffMember v v = none := by
  cases v <;> simp [diffMember]

/-- What a difference says of a key is an object only if the value becomes one. -/
theorem diffMember_ne_obj {v w : Option Json} (h : ∀ ms, w ≠ some (.obj ms))
    (ms : List (String × Json)) : diffMember v w ≠ some (.obj ms) := by
  cases w with
  | none => cases v <;> exact nofun
  | some w =>
    cases v with
    | none => exact h ms
    | some v =>
      rw [diffMember, diff_of_ne_obj fun ms hw => h ms (congrArg some hw)]
      split
      · exact nofun
      · exact h ms

private theorem find?_changed {old : List (String × Json)} (h : Assoc.Distinct old)
    (new : List (String × Json)) (k : String) :
    Assoc.find? k (changed old new) =
      (Assoc.find? k old).bind fun v => diffMember (some v) (Assoc.find? k new) := by
  induction old with
  | nil => rw [changed]; rfl
  | cons m rest ih =>
    obtain ⟨k₀, v⟩ := m
    have ih := ih (List.pairwise_cons.1 h).2
    rw [changed, Assoc.find?_cons]
    by_cases hk : k₀ = k
    · subst hk
      rw [h.find?_tail] at ih
      rw [if_pos rfl]
      cases hw : Assoc.find? k₀ new with
      | none => simp [Assoc.find?_cons, diffMember]
      | some w => by_cases hs : w.same v <;> simp_all [Assoc.find?_cons, diffMember]
    · rw [if_neg hk, ← ih]
      cases Assoc.find? k₀ new with
      | none => simp [Assoc.find?_cons, hk]
      | some w => by_cases hs : w.same v <;> simp [Assoc.find?_cons, hk, hs]

private theorem find?_added (old new : List (String × Json)) (k : String) :
    Assoc.find? k (added old new) =
      if (Assoc.find? k old).isNone then Assoc.find? k new else none := by
  induction new with
  | nil => simp [added]
  | cons m rest ih =>
    obtain ⟨k₀, v⟩ := m
    rw [added] at ih ⊢
    rw [List.filter_cons]
    by_cases hk : k₀ = k
    · subst hk
      split <;> simp_all [Assoc.find?_cons]
    · split <;> simp [Assoc.find?_cons, hk, ih]

/-- What a difference says of one key. -/
theorem find?_diff {old : List (String × Json)} (h : Assoc.Distinct old)
    (new : List (String × Json)) (k : String) :
    Assoc.find? k (changed old new ++ added old new) =
      diffMember (Assoc.find? k old) (Assoc.find? k new) := by
  rw [Assoc.find?_append, find?_changed h, find?_added]
  cases Assoc.find? k old with
  | none => rfl
  | some v => simp

private theorem sublist_keys_changed (old new : List (String × Json)) :
    List.Sublist ((changed old new).map (·.1)) (old.map (·.1)) := by
  induction old with
  | nil => exact List.Sublist.slnil
  | cons m rest ih =>
    rw [changed]
    split
    · exact ih.cons_cons _
    · split
      · exact ih.cons _
      · exact ih.cons_cons _

/-- A difference says at most one thing of a key. -/
theorem distinct_diff {old new : List (String × Json)} (hold : Assoc.Distinct old)
    (hnew : Assoc.Distinct new) : Assoc.Distinct (changed old new ++ added old new) := by
  have hsub := sublist_keys_changed old new
  refine List.pairwise_append.2 ⟨?_, hnew.filter _, fun a ha b hb heq => ?_⟩
  · exact List.pairwise_map.1 ((List.pairwise_map.2 hold).sublist hsub)
  · obtain ⟨m, hm, hma⟩ := List.mem_map.1 (hsub.mem (List.mem_map_of_mem ha))
    have hb : Assoc.find? b.1 old = none := by simpa using (List.mem_filter.1 hb).2
    exact Assoc.find?_eq_none_iff.1 hb m hm (hma.trans heq)

theorem isEmptyPatch_obj_iff {d : List (String × Json)} :
    (obj d).isEmptyPatch = true ↔ ∀ k, Assoc.find? k d = none := by
  cases d with
  | nil => exact iff_of_true rfl fun _ => rfl
  | cons m d =>
    refine iff_of_false nofun fun h => ?_
    have hhead := h m.1
    rw [Assoc.find?_cons, if_pos rfl] at hhead
    cases hhead

/-- The difference of two objects says nothing exactly if they are equal. -/
theorem isEmptyPatch_diff_iff {old new : List (String × Json)} (hold : Assoc.Ascending old)
    (hnew : Assoc.Ascending new) :
    (diff (.obj old) (.obj new)).isEmptyPatch = true ↔ (obj old).same (.obj new) = true := by
  rw [diff, isEmptyPatch_obj_iff, same_obj_iff hold hnew]
  exact forall_congr' fun k => by rw [find?_diff hold.distinct, diffMember_eq_none_iff]

/-! ## Applying a difference -/

private theorem rel_imp {α β : Type} {r s : α → β → Prop} (h : ∀ {a b}, r a b → s a b)
    {a : Option α} {b : Option β} : Option.Rel r a b → Option.Rel s a b
  | .none => .none
  | .some hab => .some (h hab)

private theorem left_of_rel {α β : Type} {p : α → Prop} {r : α → β → Prop} {a : α} {b : Option β}
    (h : Option.Rel (fun a b => p a ∧ r a b) (some a) b) : p a := by
  cases h with
  | some h => exact h.1

/-- A member after the difference to another is that other. -/
private theorem rel_mergedMember_diffMember {v w : Option Json}
    (hv : ∀ x, v = some x → IsValue x)
    (hw : ∀ y, w = some y → IsValue y ∧ y ≠ .null ∧ NoNullMember y)
    (ih : ∀ x y, v = some x → w = some y →
      IsValue ((diff x y).merge x) ∧ ((diff x y).merge x).same y = true) :
    Option.Rel (fun a b => IsValue a ∧ a.same b = true) (mergedMember (diffMember v w) v) w := by
  cases w with
  | none =>
    cases v with
    | none => exact .none
    | some x => exact .none
  | some y =>
    obtain ⟨hy, hne, hnull⟩ := hw y rfl
    cases v with
    | none =>
      rw [diffMember, mergedMember_some hne, merge_of_members_eq_nil hy hnull rfl]
      exact .some ⟨hy, same_self y⟩
    | some x =>
      rw [diffMember]
      split
      · rename_i hs
        exact .some ⟨hv x rfl, by rw [same_comm, hs]⟩
      · rw [mergedMember_some (diff_ne_null hne x)]
        exact .some (ih x y rfl rfl)

/-- Applying the difference of two values to the first gives the second. -/
theorem merge_diff_same {old new : Json} (hold : IsValue old) (hnew : IsValue new)
    (hnull : NoNullMember new) :
    IsValue ((diff old new).merge old) ∧ ((diff old new).merge old).same new = true := by
  induction new using partsInduction generalizing old with
  | obj ns ih =>
    cases old with
    | obj ms =>
      obtain ⟨hms, hmvals⟩ := isValue_obj.1 hold
      obtain ⟨hns, hnvals⟩ := isValue_obj.1 hnew
      have hnn := noNullMember_obj.1 hnull
      have hasc := ascending_mergeMembers (changed ms ns ++ added ms ns) hms
      have hdist := distinct_diff hms.distinct hns.distinct
      have hrel : ∀ k, Option.Rel (fun a b => IsValue a ∧ a.same b = true)
          (Assoc.find? k (mergeMembers (changed ms ns ++ added ms ns) ms))
          (Assoc.find? k ns) := fun k => by
        rw [find?_mergeMembers hdist, find?_diff hms.distinct]
        refine rel_mergedMember_diffMember (fun x hx => hold.member hx) (fun y hy => ?_)
          fun x y hx hy => ?_
        · exact ⟨hnew.member hy, hnn _ (Assoc.mem_of_find? hy)⟩
        · have hm := Assoc.mem_of_find? hy
          exact ih _ hm (hold.member hx) (hnew.member hy) (hnn _ hm).2
      rw [diff, merge]
      refine ⟨isValue_obj.2 ⟨hasc, fun m hm => ?_⟩, ?_⟩
      · have hrel := hrel m.1
        rw [hasc.distinct.find?_eq_of_mem hm] at hrel
        exact left_of_rel hrel
      · exact sameMembers_of_find? hasc hns fun k => rel_imp (fun h => h.2) (hrel k)
    | _ =>
      rw [show diff _ (.obj ns) = .obj ns from rfl, merge_of_members_eq_nil hnew hnull rfl]
      exact ⟨hnew, same_self _⟩
  | _ => cases old <;> exact ⟨hnew, same_self _⟩

/-- A document whose members change in every way: some go, some come, and some change their type. -/
def priorDocument : Json :=
  .obj [("kind", .null),
    ("labels", .obj [("a", .null), ("b", .int 1), ("zero", .float ⟨0⟩)]),
    ("spec", .arr [.int 1]), ("status", .obj [("phase", .null)])]

/-- What `priorDocument` is changed to. Nulls stand inside an array only. -/
def laterDocument : Json :=
  .obj [("labels", .obj [("b", .obj [("c", .obj [])]), ("zero", .float ⟨0x8000000000000000⟩)]),
    ("ports", .arr [.null, .obj [("n", .null)]]), ("spec", .obj [("size", .int 2)]),
    ("status", .arr [])]

theorem merge_diff_same_laterDocument :
    (IsValue priorDocument ∧ IsValue laterDocument ∧ NoNullMember laterDocument) ∧
      IsValue ((diff priorDocument laterDocument).merge priorDocument) ∧
      ((diff priorDocument laterDocument).merge priorDocument).same laterDocument = true := by
  have hprior : IsValue priorDocument := @isValue_of_normal? priorDocument _ rfl
  have hlater : IsValue laterDocument := @isValue_of_normal? laterDocument _ rfl
  have hnull : NoNullMember laterDocument := by
    simp [laterDocument, NoNullMember, NoNullAmong]
  exact ⟨⟨hprior, hlater, hnull⟩, merge_diff_same hprior hlater hnull⟩

end SparkLedger.Json

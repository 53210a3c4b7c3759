import SparkLedger.Proofs.Json.MergePatch

/-!
# What a difference leaves alone

Two writers of one document send differences from the copies that they have read. The writes of
one survive the other where their differences say nothing, so what matters is how little a
difference says, whatever it is applied to.

* `Alike`: two documents have objects on the way to the end of a path, and there they agree.
* `at?_merge_diff`: the difference of two documents changes nothing at such a path, in any
  document at all.
-/

namespace SparkLedger.Json

/-- Above the end of a path both documents have objects, and at its end both have nothing or equal
values. -/
structure Alike (old new : Json) (path : List String) : Prop where
  above : ∀ p, p <+: path → p ≠ path →
    (∃ ms, old.at? p = some (.obj ms)) ∧ ∃ ns, new.at? p = some (.obj ns)
  same_at : Option.Rel (fun v w => v.same w = true) (old.at? path) (new.at? path)

variable {old new : Json}

/-- Documents that are alike at the end of a path of two keys or more are alike below its first. -/
theorem Alike.tail {key next : String} {path : List String}
    (h : Alike old new (key :: next :: path)) :
    ∃ v w, old.member? key = some v ∧ new.member? key = some w ∧ Alike v w (next :: path) := by
  obtain ⟨⟨vs, hv⟩, ws, hw⟩ := h.above [key] (List.prefix_append [key] _) (by simp)
  rw [at?_singleton] at hv hw
  refine ⟨_, _, hv, hw, fun p hp hne => ?_, ?_⟩
  · have hbelow := h.above (key :: p) ((List.prefix_cons_inj key).2 hp) (by simpa using hne)
    simpa only [at?, hv, hw, Option.bind_some] using hbelow
  · have hend := h.same_at
    rwa [at?, at?, hv, hw, Option.bind_some, Option.bind_some] at hend

/-- The difference of two documents, applied to any third, changes nothing at the end of a path
where the two are alike. The whole document, at the end of the path without keys, is no part that
a patch can leave out. -/
theorem at?_merge_diff (hold : IsValue old) (hnew : IsValue new) (stored : Json)
    {path : List String} (hpath : path ≠ []) (h : Alike old new path) :
    ((diff old new).merge stored).at? path = stored.at? path := by
  induction path generalizing old new stored with
  | nil => exact absurd rfl hpath
  | cons key rest ih =>
    obtain ⟨⟨ms, hms⟩, ns, hns⟩ := h.above [] List.nil_prefix (by simp)
    obtain rfl : old = .obj ms := Option.some.inj hms
    obtain rfl : new = .obj ns := Option.some.inj hns
    have hmd := (isValue_obj.1 hold).1.distinct
    have hnd := (isValue_obj.1 hnew).1.distinct
    rw [at?, at?, diff, member?_merge (distinct_diff hmd hnd), find?_diff hmd]
    cases rest with
    | nil =>
      have hend := h.same_at
      rw [at?_singleton, at?_singleton, member?, member?] at hend
      rw [diffMember_eq_none_iff.2 hend, mergedMember]
    | cons next path =>
      obtain ⟨v, w, hv, hw, hbelow⟩ := h.tail
      obtain ⟨-, ws, hws⟩ := hbelow.above [] List.nil_prefix (by simp)
      obtain rfl : w = .obj ws := Option.some.inj hws
      rw [show Assoc.find? key ms = some v from hv,
        show Assoc.find? key ns = some (.obj ws) from hw, diffMember]
      split
      · rfl
      · -- The patch descends, into nothing if the stored document has no object there.
        have hne : Json.obj ws ≠ .null := by simp
        rw [mergedMember_some (diff_ne_null hne v), Option.bind_some,
          ih (hold.member hv) (hnew.member hw) _ (by simp) hbelow]
        cases stored.member? key <;> rfl

/-- A document that has a number under a path where `priorDocument` and `laterDocument` have zeros
of different signs. -/
def strangeDocument : Json :=
  .obj [("labels", .obj [("zero", .int 7)])]

theorem at?_merge_diff_strangeDocument :
    (IsValue priorDocument ∧ IsValue laterDocument ∧
        Alike priorDocument laterDocument ["labels", "zero"]) ∧
      ((diff priorDocument laterDocument).merge strangeDocument).at? ["labels", "zero"] =
        some (.int 7) ∧
      ((diff priorDocument laterDocument).merge (.str "gone")).at? ["labels", "zero"] = none := by
  have hprior : IsValue priorDocument := @isValue_of_normal? priorDocument _ rfl
  have hlater : IsValue laterDocument := @isValue_of_normal? laterDocument _ rfl
  have halike : Alike priorDocument laterDocument ["labels", "zero"] := by
    refine ⟨fun p hp hne => ?_, .some rfl⟩
    obtain rfl | rfl : p = [] ∨ p = ["labels"] := by
      simp only [List.prefix_cons_iff, List.prefix_nil] at hp
      grind
    · exact ⟨⟨_, rfl⟩, _, rfl⟩
    · exact ⟨⟨_, rfl⟩, _, rfl⟩
  refine ⟨⟨hprior, hlater, halike⟩, ?_, ?_⟩
  · rw [at?_merge_diff hprior hlater _ (by simp) halike]
    rfl
  · rw [at?_merge_diff hprior hlater _ (by simp) halike]
    rfl

end SparkLedger.Json

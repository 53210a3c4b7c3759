import SparkLedger.Proofs.Json.MergePatch
import SparkLedger.Proofs.Json.Reading

/-!
# Changes of what others wrote

A difference is taken between two values as they are written here, and applied to a document that
reads as the first but may be written otherwise: with members of its own, without members that
default, or with null for absence. What is read of the document then is the second value.

* `Follows`: the statement for a document and the value that it reads as.
* `follows_of_ne_obj`: whatever is written as no object replaces what is stored.
* `exists_merge_diff_eq`: a changed object, member by member.
* `Follows.present`, `nullably_mergedMember`, `optionally_mergedMember`: the statement for one
  member of an object: a member that is always written, one that may be null, and an entry of a
  map. `Follows.absent`: a member that was never stored.
* `follows_keyed`, `follows_textMap`: the statement for maps.
-/

namespace SparkLedger.Json

variable {α : Type} {write : α → Json} {read : Json → Option α}

/-- Once the document is changed as the value is changed to another, it reads as that other. -/
def Follows (write : α → Json) (read : Json → Option α) (a : α) (stored : Json) : Prop :=
  ∀ b, read ((diff (write a) (write b)).merge stored) = some b

theorem follows_of_ne_obj (hw : Faithful write read) (h : ∀ a ms, write a ≠ .obj ms) (a : α)
    (stored : Json) : Follows write read a stored := by
  intro b
  rw [diff_of_ne_obj (h b), merge_of_ne_obj (h b), hw.read_write]

/-! ## One member -/

theorem noNullMember_of_plain {j : Json} (h : Plain j) : NoNullMember j := by
  induction j using partsInduction with
  | obj ms ih =>
    refine noNullMember_obj.2 fun m hm => ?_
    have hplain := (plain_obj.1 h).2 m hm
    exact ⟨hplain.ne_null, ih m hm hplain⟩
  | _ => simp [NoNullMember]

theorem merge_ne_null {patch : Json} (h : patch ≠ .null) (stored : Json) :
    patch.merge stored ≠ .null := by
  cases patch <;> simp_all [merge]

/-- The members of an object after its difference to another. -/
def changedMembers (old new stored : List (String × Json)) : List (String × Json) :=
  mergeMembers (changed old new ++ added old new) stored

theorem merge_diff_obj (old new : List (String × Json)) (stored : Json) :
    (diff (.obj old) (.obj new)).merge stored =
      .obj (changedMembers old new stored.members) := by
  rw [diff, merge, changedMembers]

theorem find?_changedMembers {old new : List (String × Json)} (hold : Assoc.Distinct old)
    (hnew : Assoc.Distinct new) (stored : List (String × Json)) (k : String) :
    Assoc.find? k (changedMembers old new stored) =
      mergedMember (diffMember (Assoc.find? k old) (Assoc.find? k new)) (Assoc.find? k stored) := by
  rw [changedMembers, find?_mergeMembers (distinct_diff hold hnew), find?_diff hold]

/-- What is written as an object changes member by member. -/
theorem exists_merge_diff_eq (hw : Faithful write read)
    (hobj : ∀ a, write a = .obj (write a).members) (a b : α) (stored : Json)
    (hstored : Assoc.Ascending stored.members) :
    ∃ ms, (diff (write a) (write b)).merge stored = .obj ms ∧ Assoc.Distinct ms ∧
      ∀ k, Assoc.find? k ms =
        mergedMember
          (diffMember (Assoc.find? k (write a).members) (Assoc.find? k (write b).members))
          (Assoc.find? k stored.members) := by
  have hdistinct (a : α) : Assoc.Distinct (write a).members := by
    have hplain := hw.plain a
    rw [hobj a] at hplain
    exact (plain_obj.1 hplain).1.distinct
  refine ⟨changedMembers (write a).members (write b).members stored.members, ?_, ?_, ?_⟩
  · rw [← merge_diff_obj, ← hobj a, ← hobj b]
  · exact (ascending_mergeMembers _ hstored).distinct
  · exact find?_changedMembers (hdistinct a) (hdistinct b) _

section

variable {a b : α} {stored : Option Json}

/-- A member that is always written. The stored one may be absent, if that is as good as `a`. -/
theorem elim_mergedMember (hw : Faithful write read) {absent o : Option α}
    (hread : stored.elim absent read = some a) (hsame : b = a → o = some b)
    (hdiff : b ≠ a → read ((diff (write a) (write b)).merge (stored.getD .null)) = o) :
    (mergedMember (diffMember (some (write a)) (some (write b))) stored).elim absent read = o := by
  rw [diffMember]
  split
  · rename_i hwritten
    have hba : b = a := hw.eq_of_same hwritten
    rw [hsame hba, hba]
    exact hread
  · rename_i hwritten
    rw [mergedMember_some (diff_ne_null (hw.plain b).ne_null _), Option.elim_some]
    refine hdiff fun hba => hwritten ?_
    rw [hba]
    exact same_self _

theorem Follows.present (h : Follows write read a (stored.getD .null)) (hw : Faithful write read)
    {absent : Option α} (hread : stored.elim absent read = some a) (b : α) :
    (mergedMember (diffMember (some (write a)) (some (write b))) stored).elim absent read =
      some b :=
  elim_mergedMember hw hread (fun _ => rfl) fun _ => h b

/-- A member that was never stored, and defaults to `a`. -/
theorem Follows.absent (h : Follows write read a .null) (hw : Faithful write read) (b : α) :
    (mergedMember (diffMember (some (write a)) (some (write b))) none).elim (some a) read =
      some b :=
  elim_mergedMember hw rfl (fun _ => rfl) fun _ => h b

end

/-- What a reader of absent, null and other members has to satisfy. -/
private structure Lenient (read : Json → Option α) (g : Option Json → Option (Option α)) :
    Prop where
  none : g none = some none
  null : ∀ o, g (some .null) = some o → o = Option.none
  some : ∀ j, j ≠ .null → g (some j) = (read j).map Option.some

section

variable {a : Option α} {stored : Option Json}

private theorem lenient_mergedMember {g : Option Json → Option (Option α)} (hg : Lenient read g)
    (hw : Faithful write read) (hread : g stored = some a)
    (hf : ∀ v x, stored = some v → read v = some x → Follows write read x v) (b : Option α) :
    g (mergedMember (diffMember (a.map write) (b.map write)) stored) = some b := by
  cases a with
  | none =>
    cases b with
    | none => exact hread
    | some y =>
      -- Nothing is stored but null, so the change puts there what is written.
      have hnull : stored.getD .null = .null := by
        cases stored with
        | none => rfl
        | some v =>
          by_cases hv : v = .null
          · exact hv
          · rw [hg.some v hv] at hread
            obtain ⟨x, -, hx⟩ := Option.map_eq_some_iff.1 hread
            cases hx
      have hy := hw.plain y
      rw [Option.map_none, Option.map_some, diffMember, mergedMember_some hy.ne_null, hnull,
        merge_of_members_eq_nil hy.isValue (noNullMember_of_plain hy) rfl, hg.some _ hy.ne_null,
        hw.read_write]
      rfl
  | some x =>
    obtain ⟨v, rfl, hv, hx⟩ : ∃ v, stored = some v ∧ v ≠ .null ∧ read v = some x := by
      cases stored with
      | none => rw [hg.none] at hread; cases hread
      | some v =>
        have hv : v ≠ .null := by
          rintro rfl
          cases hg.null _ hread
        rw [hg.some v hv] at hread
        obtain ⟨x', hx', hx⟩ := Option.map_eq_some_iff.1 hread
        cases hx
        exact ⟨v, rfl, hv, hx'⟩
    cases b with
    | none => exact hg.none
    | some y =>
      rw [Option.map_some, Option.map_some, diffMember]
      split
      · rename_i hsame
        have hyx : y = x := hw.eq_of_same hsame
        rw [hyx]
        exact hread
      · have hd := diff_ne_null (hw.plain y).ne_null (write x)
        rw [mergedMember_some hd, Option.getD_some, hg.some _ (merge_ne_null hd v),
          hf v x rfl hx y]
        rfl

/-- A member that may be null or absent. -/
theorem nullably_mergedMember (hw : Faithful write read) (hread : nullably read stored = some a)
    (hf : ∀ v x, stored = some v → read v = some x → Follows write read x v) (b : Option α) :
    nullably read (mergedMember (diffMember (a.map write) (b.map write)) stored) = some b := by
  have hlenient : Lenient read (nullably read) :=
    ⟨rfl, fun _ h => (Option.some.inj h).symm, fun _ => asNullable?_of_ne_null read⟩
  exact lenient_mergedMember hlenient hw hread hf b

/-- An entry of a map. -/
theorem optionally_mergedMember (hw : Faithful write read) (hnull : read .null = none)
    (hread : optionally read stored = some a)
    (hf : ∀ v x, stored = some v → read v = some x → Follows write read x v) (b : Option α) :
    optionally read (mergedMember (diffMember (a.map write) (b.map write)) stored) = some b := by
  have hlenient : Lenient read (optionally read) :=
    ⟨rfl, fun o h => by simp [optionally, hnull] at h, fun _ _ => rfl⟩
  exact lenient_mergedMember hlenient hw hread hf b

end

/-! ## Maps -/

section

variable {κ : Type} [Ord κ] [Std.TransOrd κ] [Std.LawfulEqOrd κ] [DecidableEq κ]
  {name : κ → String} {ofName? : String → Option κ} {stored : Json}

theorem follows_keyed (hw : Faithful write read) (hnull : read .null = none)
    (hname : ∀ s k, ofName? s = some k ↔ s = name k) {m : SortedMap κ α}
    (hstored : Assoc.Ascending stored.members)
    (hnames : ∀ s v, Assoc.find? s stored.members = some v → ∃ k, s = name k)
    (hread : ∀ k, optionally read (Assoc.find? (name k) stored.members) = some (m.find? k))
    (hf : ∀ k v a, Assoc.find? (name k) stored.members = some v → read v = some a →
      Follows write read a v) :
    Follows (fun m : SortedMap κ α =>
      ofMap write (.ofList (m.toList.map fun e => (name e.1, e.2)))) (asMap? ofName? read)
      m stored := by
  intro b
  have hinj : Function.Injective name := fun k l hkl =>
    Option.some.inj (by rw [← (hname _ l).2 rfl, ← hkl, (hname _ k).2 rfl])
  let written (m : SortedMap κ α) : List (String × Json) :=
    (ofMap write (.ofList (m.toList.map fun e => (name e.1, e.2)))).members
  have hwritten (m : SortedMap κ α) : Assoc.Distinct (written m) :=
    (plain_obj.1 (hw.plain_ofMap _)).1.distinct
  have hfind := find?_changedMembers (hwritten m) (hwritten b) stored.members
  change asMap? ofName? read ((diff (.obj (written m)) (.obj (written b))).merge stored) = _
  rw [merge_diff_obj]
  refine asMap?_eq_some hname (ascending_mergeMembers _ hstored).distinct (fun s v hv => ?_)
    fun k => ?_
  · -- A name that is neither written nor stored does not come up.
    rw [hfind] at hv
    cases hm : Assoc.find? s (written m) with
    | some _ => exact exists_name_of_find?_ofMap hm
    | none =>
      cases hb : Assoc.find? s (written b) with
      | some _ => exact exists_name_of_find?_ofMap hb
      | none =>
        rw [hm, hb] at hv
        exact hnames s v hv
  · rw [hfind, find?_ofMap_names hinj, find?_ofMap_names hinj]
    exact optionally_mergedMember hw hnull (hread k) (hf k) _

/-- Maps from texts, to what is written as no object. -/
theorem follows_textMap (hw : Faithful write read) (hnull : read .null = none)
    (hobj : ∀ a ms, write a ≠ .obj ms) {m : SortedMap String α}
    (hstored : Assoc.Ascending stored.members)
    (hread : ∀ k, optionally (fun j => read j.undisguised)
      (Assoc.find? k stored.members) = some (m.find? k)) :
    Follows (ofMap write) (asTextMap? read) m stored := by
  have hw' : Faithful write fun j => read j.undisguised :=
    ⟨hw.plain, fun a => by rw [undisguised_of_plain (hw.plain a), hw.read_write]⟩
  have hname : ∀ s k : String, some s = some k ↔ s = id k := fun s k => Option.some_inj
  have hfollows := follows_keyed hw' hnull hname hstored (fun s _ _ => ⟨s, rfl⟩) hread
    fun k v a _ _ => follows_of_ne_obj hw' hobj a v
  simpa [Follows, asTextMap?] using hfollows

end

end SparkLedger.Json

import SparkLedger.Proofs.Object.Patch
import SparkLedger.Pod.Basic

/-!
# Objects and their metadata

What a stored object becomes when members of its metadata are set or dropped, and what is read of
it then. The version that a server gives is such an edit, and so is every change of a pod that is
made here.

* `amend`: a document with other metadata. `amend_amend`, `amend_congr`: only the last edit of a
  member counts. `Cluster.withMetadata` is an edit, and `unversioned` another.
* `Metadata.ofJson?_of_find?`: the metadata that is read after edits.
-/

namespace SparkLedger

open Json (setMember find?_setMember ascending_setMember nullably lastMember?_of_distinct asString?
  asList? asTextMap? asMembers?)

namespace Assoc

theorem insert_insert {κ ν : Type} [Ord κ] [Std.ReflOrd κ] (k : κ) (u v : ν)
    (entries : List (κ × ν)) : insert k v (insert k u entries) = insert k v entries := by
  induction entries with
  | nil => simp [insert]
  | cons e rest ih =>
    obtain ⟨k', w⟩ := e
    rw [insert]
    cases h : compare k k' with
    | lt => simp [insert, h]
    | eq => simp [insert, h]
    | gt => simp [insert, h, ih]

end Assoc

namespace Object

/-! ## Edits of members -/

/-- Members of a document that are set, or dropped where there is no value. -/
abbrev Edits := List (String × Option Json)

/-- The members after edits, one after the other. -/
def setMembers (edits : Edits) (ms : List (String × Json)) : List (String × Json) :=
  edits.foldl (fun ms e => setMember e.1 e.2 ms) ms

theorem setMembers_append (edits edits' : Edits) (ms : List (String × Json)) :
    setMembers (edits ++ edits') ms = setMembers edits' (setMembers edits ms) :=
  List.foldl_append

/-- The last edit of a member counts. -/
theorem find?_setMembers (edits : Edits) (ms : List (String × Json)) (k : String) :
    Assoc.find? k (setMembers edits ms) =
      (Assoc.find? k edits.reverse).getD (Assoc.find? k ms) := by
  induction edits generalizing ms with
  | nil => rfl
  | cons e edits ih =>
    obtain ⟨k', v⟩ := e
    have hcons : setMembers ((k', v) :: edits) ms = setMembers edits (setMember k' v ms) := rfl
    rw [hcons, ih, find?_setMember, List.reverse_cons, Assoc.find?_append, Assoc.find?_cons]
    cases Assoc.find? k edits.reverse with
    | some w => rfl
    | none => split <;> rfl

theorem ascending_setMembers {ms : List (String × Json)} (h : Assoc.Ascending ms)
    (edits : Edits) : Assoc.Ascending (setMembers edits ms) := by
  induction edits generalizing ms with
  | nil => exact h
  | cons e edits ih => exact ih (ascending_setMember h e.1 e.2)

/-! ## Documents with metadata -/

/-- The document with edits of its metadata. -/
def amend (edits : Edits) : Json → Json
  | .obj ms =>
    let metadata := ((Assoc.find? "metadata" ms).getD .null).members
    .obj (Assoc.insert "metadata" (.obj (setMembers edits metadata)) ms)
  | j => j

theorem withMetadata_eq_amend (key value : String) (j : Json) :
    Cluster.withMetadata key value j = amend [(key, some (.str value))] j := by
  cases j <;> rfl

theorem amend_amend (edits edits' : Edits) (j : Json) :
    amend edits' (amend edits j) = amend (edits ++ edits') j := by
  cases j with
  | obj ms =>
    simp only [amend, Assoc.find?_insert, ↓reduceIte, Option.getD_some, Json.members,
      Assoc.insert_insert, setMembers_append]
  | _ => rfl

variable {j : Json} {ms metadata : List (String × Json)}

namespace HasMetadata

theorem unique {ms' metadata' : List (String × Json)} (h : HasMetadata j ms metadata)
    (h' : HasMetadata j ms' metadata') : ms = ms' ∧ metadata = metadata' := by
  obtain rfl : ms = ms' := Json.obj.inj (h.eq_obj.symm.trans h'.eq_obj)
  exact ⟨rfl, Json.obj.inj (Option.some.inj (h.find?_metadata.symm.trans h'.find?_metadata))⟩

theorem amend_eq (h : HasMetadata j ms metadata) (edits : Edits) :
    amend edits j = .obj (Assoc.insert "metadata" (.obj (setMembers edits metadata)) ms) := by
  rw [h.eq_obj, amend, h.find?_metadata]
  rfl

theorem amend (h : HasMetadata j ms metadata) (edits : Edits) :
    HasMetadata (amend edits j)
      (Assoc.insert "metadata" (.obj (setMembers edits metadata)) ms)
      (setMembers edits metadata) where
  eq_obj := h.amend_eq edits
  ascending := h.ascending.insert _ _
  find?_metadata := by rw [Assoc.find?_insert, if_pos rfl]
  ascending_metadata := ascending_setMembers h.ascending_metadata edits

/-- Edits come to the same if their last values do, in documents that are the same otherwise. -/
theorem amend_congr {j' : Json} {ms' metadata' : List (String × Json)}
    (h : HasMetadata j ms metadata) (h' : HasMetadata j' ms' metadata') {edits edits' : Edits}
    (hmembers : ∀ k, k ≠ "metadata" → Assoc.find? k ms = Assoc.find? k ms')
    (hmetadata : ∀ k, (Assoc.find? k edits.reverse).getD (Assoc.find? k metadata) =
      (Assoc.find? k edits'.reverse).getD (Assoc.find? k metadata')) :
    Object.amend edits j = Object.amend edits' j' := by
  have hinner : setMembers edits metadata = setMembers edits' metadata' := by
    refine (ascending_setMembers h.ascending_metadata _).ext_find?
      (ascending_setMembers h'.ascending_metadata _) fun k => ?_
    rw [find?_setMembers, find?_setMembers, hmetadata]
  rw [h.amend_eq, h'.amend_eq, hinner]
  refine congrArg Json.obj
    ((h.ascending.insert _ _).ext_find? (h'.ascending.insert _ _) fun k => ?_)
  rw [Assoc.find?_insert, Assoc.find?_insert]
  split
  · rfl
  · rename_i hk
    exact hmembers k (Ne.symm hk)

/-- An edit does not count where the same member is edited again. -/
theorem amend_amend_of_isSome (h : HasMetadata j ms metadata) {edits : Edits} {key : String}
    (hkey : (Assoc.find? key edits.reverse).isSome = true) (v : Option Json) :
    Object.amend edits (Object.amend [(key, v)] j) = Object.amend edits j := by
  rw [amend_amend]
  refine h.amend_congr h (fun _ _ => rfl) fun k => ?_
  rw [List.reverse_append, Assoc.find?_append]
  cases hk : Assoc.find? k edits.reverse with
  | some w => rfl
  | none =>
    have hne : key ≠ k := by
      rintro rfl
      rw [hk] at hkey
      cases hkey
    rw [List.reverse_singleton, Assoc.find?_cons, if_neg hne]
    rfl

end HasMetadata

/-- The document without its version. -/
def unversioned (j : Json) : Json := amend [("resourceVersion", none)] j

theorem HasMetadata.unversioned_withMetadata (h : HasMetadata j ms metadata) (version : String) :
    unversioned (Cluster.withMetadata "resourceVersion" version j) = unversioned j := by
  rw [withMetadata_eq_amend]
  exact h.amend_amend_of_isSome rfl _

/-! ## Reading metadata -/

namespace Metadata

theorem ofJson?_obj_eq_some_iff (h : Assoc.Distinct ms) {m : Metadata} :
    ofJson? (.obj ms) = some m ↔
      nullably asString? (Assoc.find? "name" ms) = some m.name ∧
      nullably asString? (Assoc.find? "namespace" ms) = some m.ns ∧
      nullably asString? (Assoc.find? "uid" ms) = some m.uid ∧
      nullably (asTextMap? asString?) (Assoc.find? "labels" ms) = some m.labels ∧
      nullably (asList? asString?) (Assoc.find? "finalizers" ms) = some m.finalizers ∧
      nullably (asList? OwnerReference.ofJson?) (Assoc.find? "ownerReferences" ms) =
        some m.ownerReferences ∧
      nullably timestamp? (Assoc.find? "deletionTimestamp" ms) = some m.deletionTimestamp ∧
      nullably asString? (Assoc.find? "resourceVersion" ms) = some m.resourceVersion := by
  simp only [ofJson?, asMembers?, Option.bind_eq_bind, Option.bind_some,
    lastMember?_of_distinct h, Option.bind_eq_some_iff, Option.pure_def, Option.some.injEq]
  constructor
  · rintro ⟨_, hn, _, hns, _, hu, _, hl, _, hf, _, ho, _, hd, _, hv, rfl⟩
    exact ⟨hn, hns, hu, hl, hf, ho, hd, hv⟩
  · rintro ⟨hn, hns, hu, hl, hf, ho, hd, hv⟩
    exact ⟨_, hn, _, hns, _, hu, _, hl, _, hf, _, ho, _, hd, _, hv, rfl⟩

/-- Metadata whose members are partly those that were read, partly written anew. -/
theorem ofJson?_of_find? {ns : List (String × Json)} {m m' : Metadata} (hms : Assoc.Distinct ms)
    (hns : Assoc.Distinct ns) (hm : ofJson? (.obj ms) = some m)
    (h : ∀ k, Assoc.find? k ns = Assoc.find? k m'.toJson.members ∨
      (Assoc.find? k ns = Assoc.find? k ms ∧
        Assoc.find? k m'.toJson.members = Assoc.find? k m.toJson.members)) :
    ofJson? (.obj ns) = some m' := by
  have hread {β : Type} {read : Json → Option β} {k : String} {x x' : Option β}
      (hold : nullably read (Assoc.find? k ms) = some x)
      (hwritten : nullably read (Assoc.find? k m.toJson.members) = some x)
      (hwritten' : nullably read (Assoc.find? k m'.toJson.members) = some x') :
      nullably read (Assoc.find? k ns) = some x' := by
    rcases h k with hk | ⟨hk, hsame⟩
    · rw [hk, hwritten']
    · rw [hk, hold, ← hwritten', hsame, hwritten]
  obtain ⟨hn, hns', hu, hl, hf, ho, hd, hv⟩ := (ofJson?_obj_eq_some_iff hms).1 hm
  obtain ⟨an, ans, au, al, af, ao, ad, av⟩ :=
    (ofJson?_obj_eq_some_iff m.ascending_members.distinct).1 (faithful.read_write m)
  obtain ⟨bn, bns, bu, bl, bf, bo, bd, bv⟩ :=
    (ofJson?_obj_eq_some_iff m'.ascending_members.distinct).1 (faithful.read_write m')
  exact (ofJson?_obj_eq_some_iff hns).2 ⟨hread hn an bn, hread hns' ans bns, hread hu au bu,
    hread hl al bl, hread hf af bf, hread ho ao bo, hread hd ad bd, hread hv av bv⟩

/-- Metadata of which one member is written anew. -/
theorem ofJson?_setMember {m m' : Metadata} (hms : Assoc.Ascending ms)
    (hm : ofJson? (.obj ms) = some m) {key : String}
    (h : ∀ k, k ≠ key → Assoc.find? k m'.toJson.members = Assoc.find? k m.toJson.members) :
    ofJson? (.obj (setMember key (Assoc.find? key m'.toJson.members) ms)) = some m' := by
  refine ofJson?_of_find? hms.distinct (ascending_setMember hms _ _).distinct hm fun k => ?_
  rw [find?_setMember]
  by_cases hk : key = k
  · exact .inl (by rw [if_pos hk, hk])
  · exact .inr ⟨if_neg hk, h k (Ne.symm hk)⟩

theorem find?_ownerReferences_of_ne (m : Metadata) (rs : Option (List OwnerReference)) {k : String}
    (hk : k ≠ "ownerReferences") :
    Assoc.find? k { m with ownerReferences := rs : Metadata }.toJson.members =
      Assoc.find? k m.toJson.members := by
  simp [toJson, Json.ofPresent_eq, Json.members, Json.find?_present_cons, hk.symm]

theorem find?_ownerReferences (m : Metadata) :
    Assoc.find? "ownerReferences" m.toJson.members =
      m.ownerReferences.map fun rs => .arr (rs.map OwnerReference.toJson) := by
  simp [toJson, Json.ofPresent_eq, Json.members, Json.find?_present_cons]

theorem find?_finalizers_of_ne (m : Metadata) (fs : Option (List String)) {k : String}
    (hk : k ≠ "finalizers") :
    Assoc.find? k { m with finalizers := fs : Metadata }.toJson.members =
      Assoc.find? k m.toJson.members := by
  simp [toJson, Json.ofPresent_eq, Json.members, Json.find?_present_cons, hk.symm]

theorem find?_finalizers (m : Metadata) :
    Assoc.find? "finalizers" m.toJson.members = m.finalizers.map fun fs => .arr (fs.map .str) := by
  simp [toJson, Json.ofPresent_eq, Json.members, Json.find?_present_cons]

theorem find?_version_of_ne (m : Metadata) (version : Option String) {k : String}
    (hk : k ≠ "resourceVersion") :
    Assoc.find? k { m with resourceVersion := version : Metadata }.toJson.members =
      Assoc.find? k m.toJson.members := by
  simp [toJson, Json.ofPresent_eq, Json.members, Json.find?_present_cons, hk.symm]

/-- Metadata under another version. -/
theorem ofJson?_setVersion {m : Metadata} (hms : Assoc.Ascending ms)
    (hm : ofJson? (.obj ms) = some m) (version : String) :
    ofJson? (.obj (setMember "resourceVersion" (some (.str version)) ms)) =
      some { m with resourceVersion := some version } := by
  have hset := ofJson?_setMember hms hm fun k hk => find?_version_of_ne m (some version) hk
  rwa [find?_version] at hset

end Metadata

end Object

end SparkLedger

import SparkLedger.Proofs.Application.Stored
import SparkLedger.Proofs.Object.Amend
import SparkLedger.Proofs.Pod.Codec

/-!
# Patches of stored objects

What a conditional patch makes of the document that the first object was read from, whoever wrote
it. A patch of a pod edits its metadata. A patch of a record leaves its metadata alone, and the
record reads as the second one then, if it can be read.

* `isStale_conditionalPatch?`: a patch is not refused while the document is the one that was read.
* `Object.Turned`: a document whose metadata change. `Pod.turned_merge`: so does a patched pod's,
  and it reads as the changed pod. `Pod.merge_eq_amend`: if one member changes, the patch is an
  edit of that member.
* `Application.Named`: the structs of a stored record are objects.
* `Application.Named.ofJson?_mergedSpec`, `Application.eq_of_ofJson?_merge`: what the specification
  of a patched record reads as, and the record.
-/

namespace SparkLedger

open Json (mergeMembers mergedMember diffMember find?_mergeMembers nullably setMember
  find?_setMember)
open Cluster (isStale metadataText? withMetadata)

/-- A change to what is no object puts it there, whatever is stored. -/
theorem Json.mergedMember_diffMember_of_ne_obj {old new stored : Option Json} (hne : old ≠ new)
    (hold : ∀ v, old = some v → v.Plain) (hnew : ∀ v, new = some v → v.Plain)
    (hobj : ∀ ms, new ≠ some (.obj ms)) : mergedMember (diffMember old new) stored = new := by
  cases new with
  | none =>
    cases old with
    | none => exact absurd rfl hne
    | some v => rfl
  | some w =>
    have hw : w ≠ .null := (hnew w rfl).ne_null
    have hobj : ∀ ms, w ≠ .obj ms := fun ms hms => hobj ms (congrArg some hms)
    cases old with
    | none => rw [diffMember, mergedMember_some hw, merge_of_ne_obj hobj]
    | some v =>
      rw [diffMember, if_neg, diff_of_ne_obj hobj, mergedMember_some hw, merge_of_ne_obj hobj]
      intro hsame
      exact hne (congrArg some (eq_of_same_of_plain (hold v rfl) hsame).symm)

namespace Object

variable {j : Json} {ms metadata : List (String × Json)}

/-- A document after a patch whose metadata is an object, if it has any. -/
theorem HasMetadata.merge (h : HasMetadata j ms metadata) {d dm : List (String × Json)}
    (hd : Assoc.Distinct d) (hdm : (Assoc.find? "metadata" d).getD (.obj []) = .obj dm) :
    HasMetadata ((Json.obj d).merge j) (mergeMembers d ms) (mergeMembers dm metadata) where
  eq_obj := by
    rw [h.eq_obj, Json.merge]
    rfl
  ascending := Json.ascending_mergeMembers d h.ascending
  find?_metadata := by
    rw [find?_mergeMembers hd, h.find?_metadata]
    cases hm : Assoc.find? "metadata" d with
    | none =>
      rw [hm] at hdm
      cases hdm
      rw [mergeMembers]
      rfl
    | some m =>
      rw [hm] at hdm
      cases hdm
      simp [mergedMember, Json.merge, Json.members]
  ascending_metadata := Json.ascending_mergeMembers dm h.ascending_metadata

section

variable {α : Type} [Resource α] [LawfulResource α] {old new : α} {p : Json}

/-- A patch is not refused while the document has the version that was read. -/
theorem isStale_conditionalPatch? (h : HasMetadata j ms metadata)
    (hread : Metadata.ofJson? (.obj metadata) = some (Resource.metadata old))
    (hp : conditionalPatch? old new = some p)
    (hversion : (Resource.metadata new).resourceVersion = (Resource.metadata old).resourceVersion) :
    isStale p j = false := by
  obtain ⟨pd, pm, rfl, -, -, hpm, -, -, hpv⟩ := exists_members_of_conditionalPatch? hp hversion
  have hstored := ((Metadata.ofJson?_obj_eq_some_iff h.ascending_metadata.distinct).1
    hread).2.2.2.2.2.2.2
  rw [h.eq_obj, isStale, Json.member?]
  cases hm : Assoc.find? "metadata" pd with
  | none => rfl
  | some m =>
    rw [hm] at hpm
    cases hpm
    simp only [Option.bind_eq_bind, Option.bind_some, Json.member?, hpv]
    cases hv : (Resource.metadata old).resourceVersion with
    | none => rfl
    | some version =>
      rw [hv, Json.nullably_asString?_eq_some_iff] at hstored
      simp [h.find?_metadata, hstored]

/-- A patched document has metadata as well. -/
theorem exists_hasMetadata_merge (h : HasMetadata j ms metadata)
    (hp : conditionalPatch? old new = some p)
    (hversion : (Resource.metadata new).resourceVersion = (Resource.metadata old).resourceVersion) :
    ∃ ms' metadata', HasMetadata (p.merge j) ms' metadata' := by
  obtain ⟨pd, pm, rfl, hpd, -, hpm, -⟩ := exists_members_of_conditionalPatch? hp hversion
  exact ⟨_, _, h.merge hpd hpm⟩

/-- A patched document under its new version, member by member. -/
theorem exists_withMetadata_merge (h : HasMetadata j ms metadata)
    (hp : conditionalPatch? old new = some p)
    (hversion : (Resource.metadata new).resourceVersion = (Resource.metadata old).resourceVersion)
    (version : String) :
    ∃ ms' metadata',
      HasMetadata (withMetadata "resourceVersion" version (p.merge j)) ms' metadata' ∧
      (∀ k, k ≠ "metadata" → Assoc.find? k ms' = mergedMember (diffMember
        (Assoc.find? k (Resource.toJson old).members)
        (Assoc.find? k (Resource.toJson new).members)) (Assoc.find? k ms)) ∧
      Assoc.find? "resourceVersion" metadata' = some (.str version) ∧
      ∀ k, k ≠ "resourceVersion" → Assoc.find? k metadata' = mergedMember (diffMember
        (Assoc.find? k (Resource.metadata old).toJson.members)
        (Assoc.find? k (Resource.metadata new).toJson.members)) (Assoc.find? k metadata) := by
  obtain ⟨pd, pm, rfl, hpd, hpmd, hpm, hmembers, hmetadata, -⟩ :=
    exists_members_of_conditionalPatch? hp hversion
  have hmerged := (h.merge hpd hpm).amend [("resourceVersion", some (.str version))]
  rw [← withMetadata_eq_amend] at hmerged
  refine ⟨_, _, hmerged, fun k hk => ?_, ?_, fun k hk => ?_⟩
  · rw [Assoc.find?_insert, if_neg (Ne.symm hk), find?_mergeMembers hpd, hmembers k hk]
  · simp [find?_setMembers, Assoc.find?_cons]
  · rw [find?_setMembers, List.reverse_singleton, Assoc.find?_cons, if_neg (Ne.symm hk),
      Assoc.find?_nil, Option.getD_none, find?_mergeMembers hpmd, hmetadata k hk]

end

/-- A document with other metadata: where two metadata differ, the second is written, and the
rest is as it was. The version is left out. -/
def Turned (m m' : Metadata) (j j' : Json) : Prop :=
  ∃ ms metadata ms' metadata', HasMetadata j ms metadata ∧ HasMetadata j' ms' metadata' ∧
    (∀ k, k ≠ "metadata" → Assoc.find? k ms' = Assoc.find? k ms) ∧
    ∀ k, k ≠ "resourceVersion" →
      (Assoc.find? k m'.toJson.members = Assoc.find? k m.toJson.members ∧
        Assoc.find? k metadata' = Assoc.find? k metadata) ∨
      (Assoc.find? k m'.toJson.members ≠ Assoc.find? k m.toJson.members ∧
        Assoc.find? k metadata' = Assoc.find? k m'.toJson.members)

namespace Turned

variable {m m₁ m₂ : Metadata} {j' j₁ j₂ : Json}

theorem refl (h : HasMetadata j ms metadata) (m : Metadata) : Turned m m j j :=
  ⟨ms, metadata, ms, metadata, h, h, fun _ _ => rfl, fun _ _ => .inl ⟨rfl, rfl⟩⟩

/-- The version does not count. -/
theorem congr (h : Turned m m₁ j j') (hsame : ∀ k, k ≠ "resourceVersion" →
    Assoc.find? k m₂.toJson.members = Assoc.find? k m₁.toJson.members) : Turned m m₂ j j' := by
  obtain ⟨ms, metadata, ms', metadata', hj, hj', hmembers, hmetadata⟩ := h
  refine ⟨ms, metadata, ms', metadata', hj, hj', hmembers, fun k hk => ?_⟩
  rw [hsame k hk]
  exact hmetadata k hk

/-- One change after the other, if nothing is changed back. -/
theorem trans (h₁ : Turned m m₁ j j₁) (h₂ : Turned m₁ m₂ j₁ j₂)
    (hkept : ∀ k, k ≠ "resourceVersion" →
      Assoc.find? k m₂.toJson.members = Assoc.find? k m.toJson.members →
        Assoc.find? k m₁.toJson.members = Assoc.find? k m.toJson.members) :
    Turned m m₂ j j₂ := by
  obtain ⟨ms, metadata, ms₁, metadata₁, hj, hj₁, hmembers₁, hmetadata₁⟩ := h₁
  obtain ⟨ms₁', metadata₁', ms₂, metadata₂, hj₁', hj₂, hmembers₂, hmetadata₂⟩ := h₂
  obtain ⟨rfl, rfl⟩ := hj₁.unique hj₁'
  refine ⟨ms, metadata, ms₂, metadata₂, hj, hj₂, fun k hk => ?_, fun k hk => ?_⟩
  · rw [hmembers₂ k hk, hmembers₁ k hk]
  · rcases hmetadata₁ k hk with ⟨h₁, hk₁⟩ | ⟨h₁, hk₁⟩ <;>
      rcases hmetadata₂ k hk with ⟨h₂, hk₂⟩ | ⟨h₂, hk₂⟩
    · exact .inl ⟨h₂.trans h₁, hk₂.trans hk₁⟩
    · exact .inr ⟨h₁ ▸ h₂, hk₂⟩
    · exact .inr ⟨h₂ ▸ h₁, hk₂.trans (hk₁.trans h₂.symm)⟩
    · exact .inr ⟨fun h => h₁ (hkept k hk h), hk₂⟩

end Turned

end Object

/-! ## Pods -/

namespace Pod

open Object (HasMetadata Metadata amend setMembers conditionalPatch? Resource)

variable {j p : Json} {ms metadata : List (String × Json)} {pod : Pod}

theorem exists_hasMetadata (hj : j.IsValue) (hpod : Pod.ofJson? j = some pod)
    {place : String × String} (hplace : pod.metadata.identity? = some place) :
    ∃ ms metadata, HasMetadata j ms metadata := by
  cases j with
  | obj ms =>
    obtain ⟨hasc, hvals⟩ := Json.isValue_obj.1 hj
    obtain ⟨-, hmeta, -⟩ := (ofJson?_obj_eq_some_iff hasc.distinct).1 hpod
    have hempty : pod.metadata ≠ .empty := by
      intro h
      rw [h] at hplace
      cases hplace
    cases hm : Assoc.find? "metadata" ms with
    | none =>
      rw [hm] at hmeta
      exact absurd (Option.some.inj hmeta).symm hempty
    | some m =>
      rw [hm] at hmeta
      cases m with
      | obj metadata =>
        have hascm := (Json.isValue_obj.1 (hvals _ (Assoc.mem_of_find? hm))).1
        exact ⟨ms, metadata, rfl, hasc, hm, hascm⟩
      | null => exact absurd (Option.some.inj hmeta).symm hempty
      | _ => cases hmeta
  | _ => cases hpod

theorem ofJson?_metadata (h : HasMetadata j ms metadata) (hpod : Pod.ofJson? j = some pod) :
    Metadata.ofJson? (.obj metadata) = some pod.metadata := by
  rw [h.eq_obj] at hpod
  obtain ⟨-, hmeta, -⟩ := (ofJson?_obj_eq_some_iff h.ascending.distinct).1 hpod
  rw [h.find?_metadata] at hmeta
  simpa [nullably, Json.asNullable?] using hmeta

/-- What a patch of a pod is for: a change of metadata that are no maps. -/
structure Change (pod pod' : Pod) : Prop where
  status_eq : pod'.status = pod.status
  identity_eq : pod'.metadata.identity? = pod.metadata.identity?
  version_eq : pod'.metadata.resourceVersion = pod.metadata.resourceVersion
  members : ∀ k, Assoc.find? k pod'.metadata.toJson.members =
      Assoc.find? k pod.metadata.toJson.members ∨
    ∀ ms, Assoc.find? k pod'.metadata.toJson.members ≠ some (.obj ms)

/-- Nothing but metadata changes. -/
theorem Change.find?_toJson {pod' : Pod} (h : Change pod pod') {k : String} (hk : k ≠ "metadata") :
    Assoc.find? k pod'.toJson.members = Assoc.find? k pod.toJson.members := by
  simp [toJson, Json.ofPresent_eq, Json.members, Json.find?_present_cons, hk.symm, h.status_eq]

/-- The pod under a version. -/
def under (pod : Pod) (version : Option String) : Pod :=
  { pod with metadata.resourceVersion := version }

@[simp] theorem under_under (pod : Pod) (v v' : Option String) :
    (pod.under v).under v' = pod.under v' := rfl

theorem find?_under (pod : Pod) (version : Option String) {k : String}
    (hk : k ≠ "resourceVersion") :
    Assoc.find? k (pod.under version).metadata.toJson.members =
      Assoc.find? k pod.metadata.toJson.members :=
  Metadata.find?_version_of_ne _ _ hk

/-- A patched pod is stored with the metadata that change, and reads as the changed pod. -/
theorem turned_merge (h : HasMetadata j ms metadata) (hpod : Pod.ofJson? j = some pod)
    {pod' : Pod} (hchange : Change pod pod') (hp : conditionalPatch? pod pod' = some p)
    (version : String) :
    Object.Turned pod.metadata pod'.metadata j
        (withMetadata "resourceVersion" version (p.merge j)) ∧
      Pod.ofJson? (withMetadata "resourceVersion" version (p.merge j)) =
        some (pod'.under (some version)) := by
  obtain ⟨ms', metadata', h', hmembers, hv, hmetadata⟩ :=
    Object.exists_withMetadata_merge h hp hchange.version_eq version
  have hothers : ∀ k, k ≠ "metadata" → Assoc.find? k ms' = Assoc.find? k ms := by
    intro k hk
    rw [hmembers k hk]
    exact congrArg (mergedMember · (Assoc.find? k ms))
      ((congrArg (diffMember _) (hchange.find?_toJson hk)).trans (Json.diffMember_self _))
  -- A member that changes is no map, so that the patch has all of it.
  have hturned : ∀ k, k ≠ "resourceVersion" →
      (Assoc.find? k pod'.metadata.toJson.members = Assoc.find? k pod.metadata.toJson.members ∧
        Assoc.find? k metadata' = Assoc.find? k metadata) ∨
      (Assoc.find? k pod'.metadata.toJson.members ≠ Assoc.find? k pod.metadata.toJson.members ∧
        Assoc.find? k metadata' = Assoc.find? k pod'.metadata.toJson.members) := by
    intro k hk
    change ∀ k, k ≠ "resourceVersion" → Assoc.find? k metadata' = mergedMember (diffMember
      (Assoc.find? k pod.metadata.toJson.members) (Assoc.find? k pod'.metadata.toJson.members))
      (Assoc.find? k metadata) at hmetadata
    rw [hmetadata k hk]
    by_cases hsame : Assoc.find? k pod'.metadata.toJson.members =
      Assoc.find? k pod.metadata.toJson.members
    · refine .inl ⟨hsame, ?_⟩
      rw [hsame, Json.diffMember_self]
      rfl
    · refine .inr ⟨hsame, Json.mergedMember_diffMember_of_ne_obj (Ne.symm hsame) ?_ ?_ ?_⟩
      · exact fun v => (Metadata.faithful.plain pod.metadata).member
      · exact fun v => (Metadata.faithful.plain pod'.metadata).member
      · exact (hchange.members k).resolve_left hsame
  refine ⟨⟨ms, metadata, ms', metadata', h, h', hothers, hturned⟩, ?_⟩
  have hread : Metadata.ofJson? (.obj metadata') =
      some { pod'.metadata with resourceVersion := some version } := by
    refine Metadata.ofJson?_of_find? h.ascending_metadata.distinct h'.ascending_metadata.distinct
      (ofJson?_metadata h hpod) fun k => ?_
    by_cases hk : k = "resourceVersion"
    · exact .inl (by rw [hk, hv, Metadata.find?_version]; rfl)
    · rw [Metadata.find?_version_of_ne _ _ hk]
      rcases hturned k hk with ⟨hsame, hold⟩ | ⟨-, hnew⟩
      · exact .inr ⟨hold, hsame⟩
      · exact .inl hnew
  rw [h.eq_obj] at hpod
  obtain ⟨hkind, -, hstatus⟩ := (ofJson?_obj_eq_some_iff h.ascending.distinct).1 hpod
  rw [h'.eq_obj, ofJson?_obj_eq_some_iff h'.ascending.distinct, hothers "apiVersion" (by decide),
    hothers "kind" (by decide), hothers "status" (by decide), h'.find?_metadata]
  exact ⟨hkind, by simp [nullably, Json.asNullable?, hread, under],
    hstatus.trans (congrArg some hchange.status_eq.symm)⟩

/-- The version that was read is the one that is stored. -/
theorem find?_version_of_ofJson? (h : HasMetadata j ms metadata) (hpod : Pod.ofJson? j = some pod)
    {version : String} (hversion : pod.metadata.resourceVersion = some version) :
    Assoc.find? "resourceVersion" metadata = some (.str version) := by
  obtain ⟨-, -, -, -, -, -, -, hstored⟩ :=
    (Metadata.ofJson?_obj_eq_some_iff h.ascending_metadata.distinct).1 (ofJson?_metadata h hpod)
  rwa [hversion, Json.nullably_asString?_eq_some_iff] at hstored

/-- The version of a pod is that of the document that it was read from. -/
theorem version_of_ofJson? (h : HasMetadata j ms metadata) (hpod : Pod.ofJson? j = some pod) :
    metadataText? j "resourceVersion" = pod.metadata.resourceVersion := by
  obtain ⟨-, -, -, -, -, -, -, hstored⟩ :=
    (Metadata.ofJson?_obj_eq_some_iff h.ascending_metadata.distinct).1 (ofJson?_metadata h hpod)
  rw [h.eq_obj, metadataText?, Json.member?, h.find?_metadata]
  exact Json.bind_asString?_of_nullably hstored

section

variable {pod' : Pod} {key : String}

/-- There is a patch only if the member changes that may change. -/
theorem Change.find?_ne (hchange : Change pod pod') (hp : conditionalPatch? pod pod' = some p)
    (hothers : ∀ k, k ≠ key →
      Assoc.find? k pod'.metadata.toJson.members = Assoc.find? k pod.metadata.toJson.members) :
    Assoc.find? key pod.metadata.toJson.members ≠ Assoc.find? key pod'.metadata.toJson.members := by
  intro hsame
  have hmetadata : pod'.metadata.toJson = pod.metadata.toJson := by
    rw [Metadata.toJson_eq, Metadata.toJson_eq pod.metadata]
    refine congrArg Json.obj (pod'.metadata.ascending_members.ext_find?
      pod.metadata.ascending_members fun k => ?_)
    by_cases hk : k = key
    · rw [hk, hsame]
    · exact hothers k hk
  have hpods : pod' = pod := Pod.ext (Metadata.faithful.inj hmetadata) hchange.status_eq
  rw [hpods, Object.conditionalPatch?_self] at hp
  cases hp

/-- The metadata of a document after the patch for a change of one member of them. -/
private theorem mergeMembers_eq_setMembers {pm : List (String × Json)}
    (h : HasMetadata j ms metadata) (hpod : Pod.ofJson? j = some pod) (hchange : Change pod pod')
    (hkey : key ≠ "resourceVersion") (hothers : ∀ k, k ≠ key →
      Assoc.find? k pod'.metadata.toJson.members = Assoc.find? k pod.metadata.toJson.members)
    (hne : Assoc.find? key pod.metadata.toJson.members ≠
      Assoc.find? key pod'.metadata.toJson.members)
    (hpm : Assoc.Distinct pm)
    (hmetadata : ∀ k, k ≠ "resourceVersion" → Assoc.find? k pm = diffMember
      (Assoc.find? k pod.metadata.toJson.members) (Assoc.find? k pod'.metadata.toJson.members))
    (hversion : Assoc.find? "resourceVersion" pm = pod.metadata.resourceVersion.map .str) :
    mergeMembers pm metadata =
      setMembers [(key, Assoc.find? key pod'.metadata.toJson.members)] metadata := by
  refine (Json.ascending_mergeMembers pm h.ascending_metadata).ext_find?
    (Object.ascending_setMembers h.ascending_metadata _) fun k => ?_
  rw [find?_mergeMembers hpm, Object.find?_setMembers, List.reverse_singleton, Assoc.find?_cons,
    Assoc.find?_nil]
  by_cases hk : key = k
  · subst hk
    rw [hmetadata key hkey, if_pos rfl, Option.getD_some]
    refine Json.mergedMember_diffMember_of_ne_obj hne ?_ ?_ ?_
    · exact fun v => (Metadata.faithful.plain pod.metadata).member
    · exact fun v => (Metadata.faithful.plain pod'.metadata).member
    · exact (hchange.members key).resolve_left hne.symm
  rw [if_neg hk, Option.getD_none]
  by_cases hk' : k = "resourceVersion"
  · -- The patch names the version, which is the stored one.
    subst hk'
    rw [hversion]
    cases hv : pod.metadata.resourceVersion with
    | none => rfl
    | some version => rw [find?_version_of_ofJson? h hpod hv]; rfl
  · rw [hmetadata k hk', hothers k (Ne.symm hk), Json.diffMember_self]
    rfl

/-- The patch for a change of one member of the metadata, merged into the document that the pod was
read from, sets that member and nothing else. -/
theorem merge_eq_amend (h : HasMetadata j ms metadata) (hpod : Pod.ofJson? j = some pod)
    (hchange : Change pod pod') (hp : conditionalPatch? pod pod' = some p)
    (hkey : key ≠ "resourceVersion") (hothers : ∀ k, k ≠ key →
      Assoc.find? k pod'.metadata.toJson.members = Assoc.find? k pod.metadata.toJson.members) :
    p.merge j = amend [(key, Assoc.find? key pod'.metadata.toJson.members)] j := by
  have hne := hchange.find?_ne hp hothers
  obtain ⟨pd, pm, rfl, hpd, hpmd, hpm, hmembers, hmetadata, hversion⟩ :=
    Object.exists_members_of_conditionalPatch? hp hchange.version_eq
  have hmerged := h.merge hpd hpm
  have hinner := mergeMembers_eq_setMembers h hpod hchange hkey hothers hne hpmd hmetadata hversion
  rw [hmerged.eq_obj, h.amend_eq, ← hinner]
  refine congrArg Json.obj (hmerged.ascending.ext_find? (h.ascending.insert _ _) fun k => ?_)
  rw [Assoc.find?_insert]
  split
  · rename_i hk
    rw [← hk, hmerged.find?_metadata]
  · rename_i hk
    have hsame := hchange.find?_toJson (Ne.symm hk)
    rw [find?_mergeMembers hpd, hmembers k (Ne.symm hk)]
    exact congrArg (mergedMember · (Assoc.find? k ms))
      ((congrArg (diffMember _) hsame).trans (Json.diffMember_self _))

end

end Pod

/-! ## Records -/

theorem Object.HasMetadata.at?_metadata {j : Json} {ms metadata : List (String × Json)}
    (h : HasMetadata j ms metadata) (key : String) :
    j.at? ["metadata", key] = Assoc.find? key metadata := by
  rw [h.eq_obj, Json.at?, Json.member?, h.find?_metadata, Option.bind_some, Json.at?, Json.member?]
  exact Option.bind_fun_some ..

/-- A member of the metadata that is not edited stays. -/
theorem Object.HasMetadata.at?_amend {j : Json} {ms metadata : List (String × Json)}
    (h : HasMetadata j ms metadata) {edits : Edits} {key : String}
    (hkey : Assoc.find? key edits.reverse = none) :
    (Object.amend edits j).at? ["metadata", key] = j.at? ["metadata", key] := by
  rw [(h.amend edits).at?_metadata, h.at?_metadata, find?_setMembers, hkey]
  rfl

namespace Application

open Object (HasMetadata Metadata amend conditionalPatch? Resource)

/-- The paths of the structs that change member by member. The entries of the last one are named
by the ids of stages. -/
def structs (id : String) : List (List String) :=
  [[], ["spec"], ["spec", "driver"], ["spec", "runStatistics"], ["spec", "stageMetrics"],
    ["spec", "stageMetrics", "activeStageMetrics", id]]

/-- The structs of a record are stored as objects, not as arrays of their fields. -/
def Named (j : Json) : Prop := ∀ id, ∀ path ∈ structs id, ∀ xs, j.at? path ≠ some (.arr xs)

variable {j p : Json} {ms metadata : List (String × Json)} {a b : Application}

theorem ofJson?_obj_eq_some_iff (h : Assoc.Distinct ms) :
    ofJson? (.obj ms) = some a ↔
      (Assoc.find? "metadata" ms).elim none Metadata.ofJson? = some a.metadata ∧
      (Assoc.find? "spec" ms).elim none Spec.ofJson? = some a.spec := by
  have hreads : ofJson? (.obj ms) = _ := Json.Record.read_of_reads <|
    (Json.Record.reads_required h ..).bind fun _ => (Json.Record.reads_required h ..).bind fun _ =>
      Json.Record.reads_pure _
  rw [hreads]
  simp only [Option.bind_eq_some_iff, Option.some.injEq]
  constructor
  · rintro ⟨_, hm, _, hs, rfl⟩
    exact ⟨hm, hs⟩
  · rintro ⟨hm, hs⟩
    exact ⟨_, hm, _, hs, rfl⟩

theorem Named.ne_arr (h : Named j) (xs : List Json) : j ≠ .arr xs :=
  fun hxs => h "" [] (by simp [structs]) xs (congrArg some hxs)

theorem exists_hasMetadata (hj : j.IsValue) (harr : ∀ xs, j ≠ .arr xs) (ha : ofJson? j = some a) :
    ∃ ms metadata, HasMetadata j ms metadata := by
  obtain ⟨ms, rfl⟩ := Json.Record.exists_members_of_read ha harr
  obtain ⟨hasc, hvals⟩ := Json.isValue_obj.1 hj
  obtain ⟨hmeta, -⟩ := (ofJson?_obj_eq_some_iff hasc.distinct).1 ha
  cases hm : Assoc.find? "metadata" ms with
  | none => rw [hm] at hmeta; cases hmeta
  | some m =>
    rw [hm] at hmeta
    cases m with
    | obj metadata =>
      have hascm := (Json.isValue_obj.1 (hvals _ (Assoc.mem_of_find? hm))).1
      exact ⟨ms, metadata, rfl, hasc, hm, hascm⟩
    | _ => cases hmeta

theorem ofJson?_metadata (h : HasMetadata j ms metadata) (ha : ofJson? j = some a) :
    Metadata.ofJson? (.obj metadata) = some a.metadata := by
  rw [h.eq_obj] at ha
  obtain ⟨hmeta, -⟩ := (ofJson?_obj_eq_some_iff h.ascending.distinct).1 ha
  rwa [h.find?_metadata] at hmeta

/-- What the specification of a stored record reads as after a change: the one that it was changed
to, unless no statistics were stored and the new ones lack a total then. -/
theorem Named.ofJson?_mergedSpec (hj : (Json.obj ms).IsValue) (hnamed : Named (.obj ms)) {s : Spec}
    (hs : (Assoc.find? "spec" ms).elim none Spec.ofJson? = some s) (b : Spec) :
    (mergedMember (diffMember (some s.toJson) (some b.toJson)) (Assoc.find? "spec" ms)).elim none
        Spec.ofJson? =
      if ((Json.obj ms).at? ["spec", "runStatistics"]).isSome ∨ b.statistics.Whole then some b
      else none := by
  obtain ⟨stored, hstored, hread⟩ : ∃ stored, Assoc.find? "spec" ms = some stored ∧
      Spec.ofJson? stored = some s := by
    cases hst : Assoc.find? "spec" ms with
    | none => rw [hst] at hs; cases hs
    | some stored => exact ⟨stored, rfl, by rwa [hst] at hs⟩
  have hpath (id : String) (path : List String) (hmem : ("spec" :: path) ∈ structs id)
      (xs : List Json) : stored.at? path ≠ some (.arr xs) := by
    have := hnamed id _ hmem xs
    rwa [Json.at?, Json.member?, hstored, Option.bind_some] at this
  obtain ⟨ss, rfl⟩ := Json.Record.exists_members_of_read hread fun xs hxs =>
    hpath "" [] (by simp [structs]) xs (congrArg some hxs)
  have hvalue := hj.member hstored
  have hstatistics : (Json.obj ms).at? ["spec", "runStatistics"] =
      Assoc.find? "runStatistics" ss := by
    rw [Json.at?, Json.member?, hstored, Option.bind_some, Json.at?, Json.member?]
    exact Option.bind_fun_some ..
  rw [hstatistics]
  refine Json.elim_mergedMember Spec.faithful hs (fun hsame => if_pos ?_) fun _ => ?_
  · -- Statistics that are not stored are read as those of nothing.
    cases hst : Assoc.find? "runStatistics" ss with
    | some v => exact .inl rfl
    | none =>
      have hread := (Spec.ofJson?_obj_eq_some_iff (Json.isValue_obj.1 hvalue).1.distinct).1 hread
      rw [hst] at hread
      obtain ⟨-, -, -, -, -, -, hzero, -⟩ := hread
      exact .inr (.inl (by rw [hsame]; exact (Option.some.inj hzero).symm))
  · rw [hstored, Option.getD_some]
    refine Spec.ofJson?_merge_diff hvalue (fun xs h => ?_) (fun xs h => ?_) (fun xs h => ?_)
      (fun ls ns id xs hl hn h => ?_) hread b
    · exact hpath "" ["driver"] (by simp [structs]) xs (by simp [Json.at?, Json.member?, h])
    · exact hpath "" ["runStatistics"] (by simp [structs]) xs
        (by simp [Json.at?, Json.member?, h])
    · exact hpath "" ["stageMetrics"] (by simp [structs]) xs
        (by simp [Json.at?, Json.member?, h])
    · exact hpath id ["stageMetrics", "activeStageMetrics", id] (by simp [structs]) xs
        (by simp [Json.at?, Json.member?, hl, hn, h])

/-- A patched record has the same metadata but for its version, and reads as the second record
then, if it can be read. -/
theorem eq_of_ofJson?_merge (hj : j.IsValue) (hnamed : Named j) (ha : ofJson? j = some a)
    (hmeta : b.metadata = a.metadata) (hp : conditionalPatch? a b = some p) {version : String}
    {c : Application} (hc : ofJson? (withMetadata "resourceVersion" version (p.merge j)) = some c) :
    c = { b with metadata.resourceVersion := some version } := by
  obtain ⟨ms, metadata, h⟩ := exists_hasMetadata hj hnamed.ne_arr ha
  have hread := ofJson?_metadata h ha
  obtain ⟨ms', metadata', h', hmembers, hv, hmetadata⟩ := Object.exists_withMetadata_merge h hp
    (congrArg Metadata.resourceVersion hmeta) version
  -- Both records have the same metadata, so the patch has none but the version to check.
  have hmetadata' : metadata' = setMember "resourceVersion" (some (.str version)) metadata := by
    refine h'.ascending_metadata.ext_find?
      (Json.ascending_setMember h.ascending_metadata _ _) fun k => ?_
    rw [find?_setMember]
    by_cases hk : "resourceVersion" = k
    · rw [if_pos hk, ← hk, hv]
    · change Resource.metadata b = Resource.metadata a at hmeta
      rw [if_neg hk, hmetadata k (Ne.symm hk), hmeta, Json.diffMember_self]
      rfl
  rw [h.eq_obj] at hj hnamed ha
  obtain ⟨-, hspec⟩ := (ofJson?_obj_eq_some_iff h.ascending.distinct).1 ha
  rw [h'.eq_obj] at hc
  obtain ⟨hcm, hcs⟩ := (ofJson?_obj_eq_some_iff h'.ascending.distinct).1 hc
  rw [h'.find?_metadata, Option.elim_some, hmetadata',
    Metadata.ofJson?_setVersion h.ascending_metadata hread] at hcm
  refine Application.ext ?_ ?_
  · rw [← Option.some.inj hcm, hmeta]
  · have hwritten (a : Application) :
        Assoc.find? "spec" (Resource.toJson a).members = some a.spec.toJson := rfl
    rw [hmembers "spec" (by decide), hwritten, hwritten,
      hnamed.ofJson?_mergedSpec hj hspec b.spec] at hcs
    split at hcs
    · exact (Option.some.inj hcs).symm
    · cases hcs

/-- The application under a version. -/
def under (a : Application) (version : Option String) : Application :=
  { a with metadata.resourceVersion := version }

theorem hasMetadata_toJson (a : Application) :
    HasMetadata a.toJson a.toJson.members a.metadata.toJson.members where
  eq_obj := rfl
  ascending := Object.ascending_members a
  find?_metadata := Object.find?_metadata a
  ascending_metadata := a.metadata.ascending_members

/-- A record under another version. -/
theorem ofJson?_withMetadata_version (h : HasMetadata j ms metadata) (ha : ofJson? j = some a)
    (version : String) :
    ofJson? (withMetadata "resourceVersion" version j) = some (a.under (some version)) := by
  have h' := h.amend [("resourceVersion", some (.str version))]
  have hmeta := Metadata.ofJson?_setVersion h.ascending_metadata (ofJson?_metadata h ha) version
  rw [h.eq_obj] at ha
  obtain ⟨-, hspec⟩ := (ofJson?_obj_eq_some_iff h.ascending.distinct).1 ha
  rw [Object.withMetadata_eq_amend, h'.eq_obj, ofJson?_obj_eq_some_iff h'.ascending.distinct,
    h'.find?_metadata, Assoc.find?_insert, if_neg (by decide)]
  exact ⟨hmeta, hspec⟩

/-- Whether a record can be read does not depend on its version. -/
theorem ofJson?_of_withMetadata_version (h : HasMetadata j ms metadata) {version : String}
    (ha : ofJson? (withMetadata "resourceVersion" version j) = some a) (version' : String) :
    ofJson? (withMetadata "resourceVersion" version' j) = some (a.under (some version')) := by
  rw [Object.withMetadata_eq_amend] at ha
  have hagain := ofJson?_withMetadata_version (h.amend _) ha version'
  rw [Object.withMetadata_eq_amend, h.amend_amend_of_isSome rfl] at hagain
  rw [Object.withMetadata_eq_amend, hagain]

end Application

end SparkLedger

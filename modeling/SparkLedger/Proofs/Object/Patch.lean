import SparkLedger.Cluster.Serve
import SparkLedger.Object.Resource
import SparkLedger.Proofs.Application.Codec
import SparkLedger.Proofs.Json.Follows

/-!
# Conditional patches

What a conditional patch does to the object that it was made from, and what a server makes of the
metadata it sets itself.

* `LawfulResource`: a kind of object that is written faithfully, its metadata as a member.
* `HasMetadata`: a document with metadata, by its members.
* `HasMetadata.patchBetween?_eq_none_iff`, `HasMetadata.exists_metadata_diff`: what of a patch does
  not depend on the kind of the object, nor on what else its documents have.
* `conditionalPatch?_eq_none_iff`: there is no patch exactly if nothing changes.
* `HasMetadata.merge_conditionalPatch?`: the patch between two objects of the same metadata changes
  a document of the first one's version as the difference does, whatever else the document has.
* `merge_conditionalPatch?`: the patch between two objects of the same metadata gives the second,
  applied to the first.
* `exists_members_of_conditionalPatch?`, `metadataText?_conditionalPatch?`: what a patch between
  objects of the same version says of each member, and that it names the version.
* `Application.withMetadata_version`, `Application.withMetadata_uid`: a version or a uid set in a
  record is set in the application.
-/

namespace SparkLedger.Object

open Json (Plain plain_obj merge diff find?_mergeMembers changed added find?_diff diffMember
  diffMember_self find?_present_cons asString?)
open Cluster (metadataText? withMetadata)

/-- A kind of object that is written faithfully, its metadata as a member. -/
class LawfulResource (α : Type) [Resource α] : Prop where
  faithful : Json.Faithful (Resource.toJson : α → Json) Resource.ofJson?
  member_metadata (a : α) :
    (Resource.toJson a).member? "metadata" = some (Resource.metadata a).toJson

instance : LawfulResource Application where
  faithful := Application.faithful
  member_metadata _ := rfl

/-! ## Metadata -/

namespace Metadata

variable {m : Metadata}

theorem toJson_eq (m : Metadata) : m.toJson = .obj m.toJson.members := rfl

theorem ascending_members (m : Metadata) : Assoc.Ascending m.toJson.members :=
  (plain_obj.1 (faithful.plain m)).1

theorem find?_version (m : Metadata) :
    Assoc.find? "resourceVersion" m.toJson.members = m.resourceVersion.map .str := by
  simp [toJson, Json.ofPresent_eq, Json.members, find?_present_cons]

end Metadata

section

variable {α : Type} [Resource α] [LawfulResource α]

theorem toJson_eq (a : α) : Resource.toJson a = .obj (Resource.toJson a).members := by
  have h := LawfulResource.member_metadata a
  cases hj : Resource.toJson a with
  | obj ms => rfl
  | _ => rw [hj] at h; cases h

theorem ascending_members (a : α) : Assoc.Ascending (Resource.toJson a).members := by
  have h := LawfulResource.faithful.plain a
  rw [toJson_eq, plain_obj] at h
  exact h.1

theorem find?_metadata (a : α) :
    Assoc.find? "metadata" (Resource.toJson a).members = some (Resource.metadata a).toJson := by
  have h := LawfulResource.member_metadata a
  rwa [toJson_eq] at h

theorem version_toJson (a : α) :
    metadataText? (Resource.toJson a) "resourceVersion" =
      (Resource.metadata a).resourceVersion := by
  simp only [metadataText?, LawfulResource.member_metadata, Option.bind_eq_bind, Option.bind_some]
  rw [Metadata.toJson_eq, Json.member?, Metadata.find?_version]
  cases (Resource.metadata a).resourceVersion <;> rfl

theorem toJson_inj {a b : α} (h : Resource.toJson a = Resource.toJson b) : a = b :=
  LawfulResource.faithful.inj h

end

/-- A document with these members, among them metadata with members of its own. -/
structure HasMetadata (j : Json) (ms metadata : List (String × Json)) : Prop where
  eq_obj : j = .obj ms
  ascending : Assoc.Ascending ms
  find?_metadata : Assoc.find? "metadata" ms = some (.obj metadata)
  ascending_metadata : Assoc.Ascending metadata

theorem hasMetadata_toJson {α : Type} [Resource α] [LawfulResource α] (a : α) :
    HasMetadata (Resource.toJson a) (Resource.toJson a).members
      (Resource.metadata a).toJson.members where
  eq_obj := toJson_eq a
  ascending := ascending_members a
  find?_metadata := find?_metadata a
  ascending_metadata := (Resource.metadata a).ascending_members

/-! ## Patches between documents -/

section

variable {version : Option String} {old new p : Json}

theorem patchBetween?_eq (version : Option String) (old new : Json) :
    patchBetween? version old new =
      if (diff old new).isEmptyPatch then none
      else some (version.elim (diff old new) (conditionOn · (diff old new))) := by
  cases version <;> rfl

theorem eq_of_patchBetween? (hp : patchBetween? version old new = some p) :
    p = version.elim (diff old new) (conditionOn · (diff old new)) := by
  rw [patchBetween?_eq] at hp
  split at hp
  · cases hp
  · exact (Option.some.inj hp).symm

namespace HasMetadata

variable {ms ns metadata metadata' : List (String × Json)} (h : HasMetadata old ms metadata)
  (h' : HasMetadata new ns metadata')
include h h'

/-- The difference of two documents is an object. -/
theorem diff_eq : diff old new = .obj (changed ms ns ++ added ms ns) := by
  rw [h.eq_obj, h'.eq_obj, diff]

theorem distinct_diff : Assoc.Distinct (changed ms ns ++ added ms ns) :=
  Json.distinct_diff h.ascending.distinct h'.ascending.distinct

/-- There is no patch exactly between equal documents. -/
theorem patchBetween?_eq_none_iff :
    patchBetween? version old new = none ↔ old.same new = true := by
  rw [patchBetween?_eq, h.eq_obj, h'.eq_obj, ← Json.isEmptyPatch_diff_iff h.ascending h'.ascending]
  split
  · rename_i hempty
    exact iff_of_true rfl hempty
  · rename_i hempty
    exact iff_of_false nofun hempty

/-- What the difference of two documents says of their metadata. -/
theorem exists_metadata_diff :
    ∃ dm, (Assoc.find? "metadata" (changed ms ns ++ added ms ns)).getD (.obj []) = .obj dm ∧
      Assoc.Distinct dm ∧
      ∀ k, Assoc.find? k dm = diffMember (Assoc.find? k metadata) (Assoc.find? k metadata') := by
  have hold := h.ascending_metadata
  have hnew := h'.ascending_metadata
  rw [find?_diff h.ascending.distinct, h.find?_metadata, h'.find?_metadata, diffMember]
  split
  · rename_i hsame
    rw [Json.same_comm, Json.same_obj_iff hold hnew] at hsame
    exact ⟨[], rfl, .nil, fun k => (Json.diffMember_eq_none_iff.2 (hsame k)).symm⟩
  · rw [diff]
    exact ⟨_, rfl, Json.distinct_diff hold.distinct hnew.distinct, find?_diff hold.distinct _⟩

end HasMetadata

end

/-! ## Patches that name a version -/

variable {d : List (String × Json)} {version : String}

private theorem conditionOn_obj (h : Assoc.find? "metadata" d = none) :
    conditionOn version (.obj d) =
      .obj (Assoc.put "metadata" (.obj [("resourceVersion", .str version)]) d) := by
  rw [conditionOn, h]
  rfl

private theorem merge_version {metadata : List (String × Json)} (hasc : Assoc.Ascending metadata)
    (h : Assoc.find? "resourceVersion" metadata = some (.str version)) :
    (Json.obj [("resourceVersion", .str version)]).merge (.obj metadata) = .obj metadata := by
  rw [merge]
  refine congrArg Json.obj ((Json.ascending_mergeMembers _ hasc).ext_find? hasc fun k => ?_)
  rw [find?_mergeMembers (List.pairwise_singleton _ _), Assoc.find?_cons]
  split
  · rename_i hk
    subst hk
    rw [h]
    rfl
  · rfl

/-- Naming the version of a document in a patch that leaves its metadata alone changes nothing. -/
theorem HasMetadata.merge_conditionOn {j : Json} {ms metadata : List (String × Json)}
    (hj : HasMetadata j ms metadata)
    (hversion : Assoc.find? "resourceVersion" metadata = some (.str version))
    (hd : Assoc.Distinct d) (h : Assoc.find? "metadata" d = none) :
    (conditionOn version (.obj d)).merge j = (Json.obj d).merge j := by
  have hasc := hj.ascending
  rw [conditionOn_obj h, hj.eq_obj, merge, merge]
  refine congrArg Json.obj ((Json.ascending_mergeMembers _ hasc).ext_find?
    (Json.ascending_mergeMembers _ hasc) fun k => ?_)
  rw [Json.members, find?_mergeMembers (hd.put _ _), find?_mergeMembers hd, Assoc.find?_put]
  split
  · rename_i hk
    subst hk
    rw [hj.find?_metadata, h]
    exact congrArg some (merge_version hj.ascending_metadata hversion)
  · rfl

theorem merge_diff_of_plain {a b : Json} (ha : Plain a) (hb : Plain b) :
    (diff a b).merge a = b :=
  Json.eq_of_same_of_plain hb
    (Json.merge_diff_same ha.isValue hb.isValue (Json.noNullMember_of_plain hb)).2

section

variable {α : Type} [Resource α] [LawfulResource α] {old new : α} {p : Json}

/-- The difference between two objects is an object. -/
theorem diff_toJson (old new : α) :
    diff (Resource.toJson old) (Resource.toJson new) =
      .obj (changed (Resource.toJson old).members (Resource.toJson new).members ++
        added (Resource.toJson old).members (Resource.toJson new).members) :=
  (hasMetadata_toJson old).diff_eq (hasMetadata_toJson new)

/-- The members of a difference between objects. -/
private theorem exists_diff_eq (hmeta : Resource.metadata new = Resource.metadata old) :
    ∃ d, diff (Resource.toJson old) (Resource.toJson new) = .obj d ∧ Assoc.Distinct d ∧
      Assoc.find? "metadata" d = none := by
  have hold := (ascending_members old).distinct
  refine ⟨_, diff_toJson old new, Json.distinct_diff hold (ascending_members new).distinct, ?_⟩
  rw [find?_diff hold, find?_metadata, find?_metadata, hmeta, diffMember, Json.same_self]
  rfl

omit [LawfulResource α] in
theorem conditionalPatch?_eq (old new : α) :
    conditionalPatch? old new =
      if (diff (Resource.toJson old) (Resource.toJson new)).isEmptyPatch then none
      else some (match (Resource.metadata old).resourceVersion with
        | some version => conditionOn version (diff (Resource.toJson old) (Resource.toJson new))
        | none => diff (Resource.toJson old) (Resource.toJson new)) := by
  unfold conditionalPatch? patchBetween?
  cases (Resource.metadata old).resourceVersion <;> rfl

/-- The patch between two objects of the same metadata changes a document of the first one's version
as the difference does. -/
theorem HasMetadata.merge_conditionalPatch? {j : Json} {ms metadata : List (String × Json)}
    (hj : HasMetadata j ms metadata)
    (hversion : Assoc.find? "resourceVersion" metadata =
      (Resource.metadata old).resourceVersion.map .str)
    (h : conditionalPatch? old new = some p)
    (hmeta : Resource.metadata new = Resource.metadata old) :
    p.merge j = (diff (Resource.toJson old) (Resource.toJson new)).merge j := by
  obtain ⟨d, hd, hdistinct, hnone⟩ := exists_diff_eq hmeta
  rw [conditionalPatch?_eq, hd] at h
  split at h
  · cases h
  · cases hold : (Resource.metadata old).resourceVersion with
    | none => rw [hold] at h; cases h; rw [hd]
    | some version =>
      rw [hold] at h hversion
      cases h
      rw [hd]
      exact hj.merge_conditionOn hversion hdistinct hnone

/-- The patch between two objects of the same metadata gives the second. -/
theorem merge_conditionalPatch? (h : conditionalPatch? old new = some p)
    (hmeta : Resource.metadata new = Resource.metadata old) :
    p.merge (Resource.toJson old) = Resource.toJson new := by
  rw [(hasMetadata_toJson old).merge_conditionalPatch? (Metadata.find?_version _) h hmeta]
  exact merge_diff_of_plain (LawfulResource.faithful.plain old)
    (LawfulResource.faithful.plain new)

/-- What a patch says of each member, and of each member of the metadata. -/
theorem exists_members_of_conditionalPatch? (hp : conditionalPatch? old new = some p)
    (hversion : (Resource.metadata new).resourceVersion = (Resource.metadata old).resourceVersion) :
    ∃ pd pm, p = .obj pd ∧ Assoc.Distinct pd ∧ Assoc.Distinct pm ∧
      (Assoc.find? "metadata" pd).getD (.obj []) = .obj pm ∧
      (∀ k, k ≠ "metadata" → Assoc.find? k pd = diffMember
        (Assoc.find? k (Resource.toJson old).members)
        (Assoc.find? k (Resource.toJson new).members)) ∧
      (∀ k, k ≠ "resourceVersion" → Assoc.find? k pm = diffMember
        (Assoc.find? k (Resource.metadata old).toJson.members)
        (Assoc.find? k (Resource.metadata new).toJson.members)) ∧
      Assoc.find? "resourceVersion" pm = (Resource.metadata old).resourceVersion.map .str := by
  have hold := (ascending_members old).distinct
  have hd := Json.distinct_diff hold (ascending_members new).distinct
  have hfind := find?_diff hold (Resource.toJson new).members
  obtain ⟨dm, hdm, hdistinct, hfindm⟩ :=
    (hasMetadata_toJson old).exists_metadata_diff (hasMetadata_toJson new)
  rw [conditionalPatch?_eq, diff_toJson] at hp
  split at hp
  · cases hp
  · cases hv : (Resource.metadata old).resourceVersion with
    | none =>
      rw [hv] at hp
      cases hp
      refine ⟨_, dm, rfl, hd, hdistinct, hdm, fun k _ => hfind k, fun k _ => hfindm k, ?_⟩
      rw [hfindm, Metadata.find?_version, Metadata.find?_version, hversion, diffMember_self]
      rfl
    | some version =>
      rw [hv] at hp
      cases hp
      refine ⟨Assoc.put "metadata" (.obj (Assoc.put "resourceVersion" (.str version) dm)) _,
        Assoc.put "resourceVersion" (.str version) dm, by simp only [conditionOn, hdm],
        hd.put _ _, hdistinct.put _ _, ?_, fun k hk => ?_, fun k hk => ?_, ?_⟩
      · rw [Assoc.find?_put, if_pos rfl]
        rfl
      · rw [Assoc.find?_put, if_neg (Ne.symm hk), hfind]
      · rw [Assoc.find?_put, if_neg (Ne.symm hk), hfindm]
      · rw [Assoc.find?_put, if_pos rfl]
        rfl

/-- A patch names the version of the first object. -/
theorem metadataText?_conditionalPatch? (hp : conditionalPatch? old new = some p)
    (hversion : (Resource.metadata new).resourceVersion = (Resource.metadata old).resourceVersion) :
    metadataText? p "resourceVersion" = (Resource.metadata old).resourceVersion := by
  obtain ⟨pd, pm, rfl, -, -, hpm, -, -, hpv⟩ := exists_members_of_conditionalPatch? hp hversion
  have hnamed : ((Assoc.find? "metadata" pd).bind (·.member? "resourceVersion")).bind asString? =
      (Assoc.find? "resourceVersion" pm).bind asString? := by
    cases hm : Assoc.find? "metadata" pd with
    | none =>
      rw [hm] at hpm
      cases hpm
      rfl
    | some m =>
      rw [hm] at hpm
      cases hpm
      rfl
  refine hnamed.trans ?_
  rw [hpv]
  cases (Resource.metadata old).resourceVersion <;> rfl

/-- There is no patch exactly between objects that are written alike. -/
theorem conditionalPatch?_eq_none_iff_toJson :
    conditionalPatch? old new = none ↔ Resource.toJson old = Resource.toJson new := by
  refine ((hasMetadata_toJson old).patchBetween?_eq_none_iff (hasMetadata_toJson new)).trans
    ⟨Json.eq_of_same_of_plain (LawfulResource.faithful.plain new), fun h => ?_⟩
  rw [h]
  exact Json.same_self _

/-- There is no patch exactly if there is nothing to change. -/
theorem conditionalPatch?_eq_none_iff : conditionalPatch? old new = none ↔ old = new :=
  conditionalPatch?_eq_none_iff_toJson.trans ⟨toJson_inj, congrArg _⟩

theorem eq_of_conditionalPatch?_eq_none (h : conditionalPatch? old new = none) : old = new :=
  conditionalPatch?_eq_none_iff.1 h

theorem conditionalPatch?_self (a : α) : conditionalPatch? a a = none :=
  conditionalPatch?_eq_none_iff.2 rfl

end

/-! ## Metadata that the server sets -/

namespace Metadata

private theorem insert_text {m m' : Metadata} {key text : String}
    (hkey : Assoc.find? key m'.toJson.members = some (.str text))
    (hothers : ∀ k, key ≠ k → Assoc.find? k m'.toJson.members = Assoc.find? k m.toJson.members) :
    Json.obj (Assoc.insert key (.str text) m.toJson.members) = m'.toJson := by
  rw [toJson_eq m']
  refine congrArg Json.obj ((m.ascending_members.insert _ _).ext_find? m'.ascending_members
    fun k => ?_)
  rw [Assoc.find?_insert]
  split
  · rename_i hk
    rw [← hk, hkey]
  · rename_i hk
    exact (hothers k hk).symm

theorem insert_version (m : Metadata) (version : String) :
    Json.obj (Assoc.insert "resourceVersion" (.str version) m.toJson.members) =
      { m with resourceVersion := some version : Metadata }.toJson := by
  refine insert_text (find?_version _) fun k hk => ?_
  simp only [toJson, Json.ofPresent_eq, Json.members, find?_present_cons, if_neg hk]

theorem insert_uid (m : Metadata) (uid : String) :
    Json.obj (Assoc.insert "uid" (.str uid) m.toJson.members) =
      { m with uid := some uid : Metadata }.toJson := by
  refine insert_text ?_ fun k hk => ?_
  · simp [toJson, Json.ofPresent_eq, Json.members, find?_present_cons]
  · simp only [toJson, Json.ofPresent_eq, Json.members, find?_present_cons, if_neg hk]

end Metadata

end SparkLedger.Object

namespace SparkLedger.Application

variable (a : Application)

private theorem withMetadata_eq (key text : String) :
    Cluster.withMetadata key text a.toJson =
      .obj [("apiVersion", .str apiVersion), ("kind", .str kind),
        ("metadata", .obj (Assoc.insert key (.str text) a.metadata.toJson.members)),
        ("spec", a.spec.toJson)] := by
  have hversion : compare "metadata" "apiVersion" = .gt := by decide
  have hkind : compare "metadata" "kind" = .gt := by decide
  simp [Cluster.withMetadata, toJson, Assoc.find?_cons, Assoc.insert, hversion, hkind]

theorem withMetadata_version (version : String) :
    Cluster.withMetadata "resourceVersion" version a.toJson =
      { a with metadata.resourceVersion := some version : Application }.toJson := by
  rw [withMetadata_eq, Object.Metadata.insert_version]
  rfl

theorem withMetadata_uid (uid : String) :
    Cluster.withMetadata "uid" uid a.toJson =
      { a with metadata.uid := some uid : Application }.toJson := by
  rw [withMetadata_eq, Object.Metadata.insert_uid]
  rfl

end SparkLedger.Application

import SparkLedger.Proofs.Object.Stored

/-!
# What a conditional patch says

A conditional patch says what the difference says, and names the version of the first object
besides. It does so whether the metadata differ or not, and whatever version the second object has:
the metadata of a difference are an object or missing, never anything that a version could not be
put into. A server that checks versions refuses it exactly if what it has stored has another one.

All of this is said of any two documents of objects, whatever else they have. What the objects of
one kind are written as are such documents.

* `NamesVersion`: a patch that names a version, and agrees with a difference everywhere else.
* `namesVersion_conditionOn`: where a version is put, it is named.
* `NamesVersion.isStale_iff`, `NamesVersion.patch_eq`: which patches are refused.
* `IsDocument`, `isDocument_toJson`: what is asked of a document, and that objects are written so.
* `ConditionalOn`, `IsDocument.conditionalOn`: what is said of the patch between two documents, and
  that it holds of any two.
-/

namespace SparkLedger

open Json (diff)
open Cluster (isStale metadataText?)

namespace Json

/-- Only an object has something at the end of a path. -/
theorem at?_cons_of_ne_obj {j : Json} (h : ∀ ms, j ≠ .obj ms) (key : String)
    (path : List String) : j.at? (key :: path) = none := by
  cases j with
  | obj ms => exact absurd rfl (h ms)
  | _ => rfl

theorem at?_pair (j : Json) (key key' : String) :
    j.at? [key, key'] = (j.member? key).bind (·.member? key') := by
  simp only [at?, Option.bind_fun_some]

theorem same_str_iff {s : String} {j : Json} : (str s).same j = true ↔ j.asString? = some s := by
  cases j with
  | str t =>
    rw [same, beq_iff_eq, asString?, Option.some_inj]
    exact eq_comm
  | _ => simp [same, asString?]

end Json

namespace Object

/-- The path of the version in an object. -/
def versionPath : List String := ["metadata", "resourceVersion"]

/-- A patch that names a version, and says what a difference says at every other path. It gives no
member twice, and neither do its metadata. -/
structure NamesVersion (version : String) (difference patch : Json) : Prop where
  distinct : ∃ ms metadata, patch = .obj ms ∧ Assoc.Distinct ms ∧
    Assoc.find? "metadata" ms = some (.obj metadata) ∧ Assoc.Distinct metadata
  at?_version : patch.at? versionPath = some (.str version)
  at?_eq : ∀ path, ¬path <+: versionPath → patch.at? path = difference.at? path

/-! ## Naming a version -/

section

variable {d dm : List (String × Json)} {version : String}

private theorem conditionOn_obj_of_getD
    (hdm : (Assoc.find? "metadata" d).getD (.obj []) = .obj dm) :
    conditionOn version (.obj d) =
      .obj (Assoc.put "metadata" (.obj (Assoc.put "resourceVersion" (.str version) dm)) d) := by
  simp only [conditionOn, hdm]

private theorem at?_metadata_cons (hdm : (Assoc.find? "metadata" d).getD (.obj []) = .obj dm)
    (key : String) (path : List String) :
    (Json.obj d).at? ("metadata" :: key :: path) = (Assoc.find? key dm).bind (·.at? path) := by
  rw [Json.at?, Json.member?]
  cases hm : Assoc.find? "metadata" d with
  | none =>
    rw [hm] at hdm
    cases hdm
    rfl
  | some m =>
    rw [hm] at hdm
    cases hdm
    rfl

/-- A version that is named in the metadata of a patch changes no other part of them. -/
private theorem at?_metadata_put
    (hversion : ∀ v, Assoc.find? "resourceVersion" dm = some v → ∀ ms, v ≠ .obj ms)
    (key : String) {path : List String} (hpath : ¬key :: path <+: ["resourceVersion"]) :
    (Assoc.find? key (Assoc.put "resourceVersion" (.str version) dm)).bind (·.at? path) =
      (Assoc.find? key dm).bind (·.at? path) := by
  rw [Assoc.find?_put]
  split
  · -- Below the version there is nothing before and after: neither has an object there.
    rename_i hkey
    subst hkey
    cases path with
    | nil => exact absurd List.prefix_rfl hpath
    | cons key path =>
      rw [Option.bind_some, Json.at?_cons_of_ne_obj (by simp)]
      cases hv : Assoc.find? "resourceVersion" dm with
      | none => rfl
      | some v => exact (Json.at?_cons_of_ne_obj (hversion v hv) key path).symm
  · rfl

/-- A version can be named where the metadata of a patch are an object, or missing. -/
theorem namesVersion_conditionOn (hd : Assoc.Distinct d)
    (hdm : (Assoc.find? "metadata" d).getD (.obj []) = .obj dm) (hdistinct : Assoc.Distinct dm)
    (hversion : ∀ v, Assoc.find? "resourceVersion" dm = some v → ∀ ms, v ≠ .obj ms) :
    NamesVersion version (.obj d) (conditionOn version (.obj d)) := by
  rw [conditionOn_obj_of_getD hdm]
  refine ⟨⟨_, _, rfl, hd.put _ _, by rw [Assoc.find?_put, if_pos rfl], hdistinct.put _ _⟩, ?_,
    fun path hpath => ?_⟩
  · rw [versionPath, Json.at?_pair, Json.member?, Assoc.find?_put, if_pos rfl, Option.bind_some,
      Json.member?, Assoc.find?_put, if_pos rfl]
  · cases path with
    | nil => exact absurd List.nil_prefix hpath
    | cons key path =>
      rw [Json.at?, Json.member?, Assoc.find?_put]
      split
      · rename_i hkey
        subst hkey
        cases path with
        | nil => exact absurd (List.prefix_append ["metadata"] _) hpath
        | cons key path =>
          rw [Option.bind_some, Json.at?, Json.member?, at?_metadata_cons hdm]
          exact at?_metadata_put hversion key fun h => hpath ((List.prefix_cons_inj _).2 h)
      · rfl

end

/-! ## Being refused -/

namespace NamesVersion

variable {version : String} {difference p : Json} (h : NamesVersion version difference p)
include h

/-- A patch is refused exactly if the stored object does not have the version it names. -/
theorem isStale_iff (j : Json) :
    isStale p j = true ↔ metadataText? j "resourceVersion" ≠ some version := by
  have hnamed : (p.member? "metadata").bind (·.member? "resourceVersion") = some (.str version) :=
    (Json.at?_pair ..).symm.trans h.at?_version
  simp only [isStale, metadataText?, Option.bind_eq_bind, hnamed]
  cases (j.member? "metadata").bind (·.member? "resourceVersion") with
  | none => simp [Json.same]
  | some v =>
    rw [Option.getD_some, Option.bind_some, Bool.not_eq_true', ← Bool.not_eq_true]
    exact not_congr Json.same_str_iff

/-- What the API server makes of such a patch of an object that it has. -/
theorem patch_eq {c : Cluster} {path : String} {j : Json} (hj : c.objects.find? path = some j) :
    c.patch path p =
      if metadataText? j "resourceVersion" = some version then
        c.storeAnswering path (p.merge j)
      else
        (Cluster.failure 409 "Conflict"
          ("the object '" ++ Cluster.lastPart path ++ "' has been modified"), c) := by
  rw [Cluster.patch, hj]
  by_cases hversion : metadataText? j "resourceVersion" = some version
  · rw [if_pos hversion]
    exact if_neg fun hstale => (h.isStale_iff j).1 hstale hversion
  · rw [if_neg hversion]
    exact if_pos ((h.isStale_iff j).2 hversion)

end NamesVersion

/-! ## Documents of objects -/

/-- The document of an object of the cluster. Its metadata are a JSON object, and the version that
they give, if they give one, is not: the cluster writes it as text. What other members the document
and its metadata have is open. -/
structure IsDocument (j : Json) : Prop where
  isValue : j.IsValue
  exists_metadata : ∃ metadata, j.member? "metadata" = some (.obj metadata)
  version_ne_obj : ∀ ms, j.at? versionPath ≠ some (.obj ms)

/-- What is said of the patch from one document to another, conditional on a version if there is
one. -/
structure ConditionalOn (version : Option String) (old new : Json) : Prop where
  /-- There is no patch exactly between equal documents. -/
  eq_none_iff : patchBetween? version old new = none ↔ old.same new = true
  /-- A patch on the condition of a version names it, whatever version the second document has, and
  says what the difference says otherwise. -/
  namesVersion : ∀ v p, version = some v → patchBetween? version old new = some p →
    NamesVersion v (diff old new) p
  /-- A patch without a condition is the difference. -/
  eq_diff : ∀ p, version = none → patchBetween? version old new = some p → p = diff old new
  /-- The API server takes the patch as long as it has that version, and refuses it with a conflict
  afterwards. -/
  taken_iff : ∀ v p, version = some v → patchBetween? version old new = some p →
    ∀ (c : Cluster) path j, c.objects.find? path = some j →
      c.patch path p =
        if metadataText? j "resourceVersion" = some v then
          c.storeAnswering path (p.merge j)
        else
          (Cluster.failure 409 "Conflict"
            ("the object '" ++ Cluster.lastPart path ++ "' has been modified"), c)

theorem IsDocument.exists_hasMetadata {j : Json} (h : IsDocument j) :
    ∃ ms metadata, HasMetadata j ms metadata ∧
      ∀ vs, Assoc.find? "resourceVersion" metadata ≠ some (.obj vs) := by
  obtain ⟨metadata, hmetadata⟩ := h.exists_metadata
  cases j with
  | obj ms =>
    obtain ⟨hascending, -⟩ := Json.isValue_obj.1 h.isValue
    have hvalue := h.isValue.member hmetadata
    have hm : HasMetadata (.obj ms) ms metadata :=
      ⟨rfl, hascending, hmetadata, (Json.isValue_obj.1 hvalue).1⟩
    exact ⟨ms, metadata, hm, hm.at?_metadata "resourceVersion" ▸ h.version_ne_obj⟩
  | _ => cases hmetadata

/-- The patch between two documents names the version it is conditional on. -/
theorem HasMetadata.namesVersion {old new p : Json}
    {ms ns metadata metadata' : List (String × Json)} (h : HasMetadata old ms metadata)
    (h' : HasMetadata new ns metadata')
    (hversion : ∀ vs, Assoc.find? "resourceVersion" metadata' ≠ some (.obj vs)) {version : String}
    (hp : patchBetween? (some version) old new = some p) :
    NamesVersion version (diff old new) p := by
  obtain ⟨dm, hdm, hdistinct, hfind⟩ := h.exists_metadata_diff h'
  rw [eq_of_patchBetween? hp, Option.elim_some, h.diff_eq h']
  refine namesVersion_conditionOn (h.distinct_diff h') hdm hdistinct fun v hv vs hobj => ?_
  rw [hfind, hobj] at hv
  exact Json.diffMember_ne_obj hversion vs hv

/-- Any two documents of objects, and any version. -/
theorem IsDocument.conditionalOn {old new : Json} (hold : IsDocument old) (hnew : IsDocument new)
    (version : Option String) : ConditionalOn version old new := by
  obtain ⟨ms, metadata, h, -⟩ := hold.exists_hasMetadata
  obtain ⟨ns, metadata', h', hversion⟩ := hnew.exists_hasMetadata
  have hnames : ∀ v p, version = some v → patchBetween? version old new = some p →
      NamesVersion v (diff old new) p := by
    rintro v p rfl hp
    exact h.namesVersion h' hversion hp
  refine ⟨h.patchBetween?_eq_none_iff h', hnames, ?_, fun v p hv hp _ _ _ hj =>
    (hnames v p hv hp).patch_eq hj⟩
  rintro p rfl hp
  exact eq_of_patchBetween? hp

section

variable {α : Type} [Resource α] [LawfulResource α]

theorem isDocument_toJson (a : α) : IsDocument (Resource.toJson a) where
  isValue := (LawfulResource.faithful.plain a).isValue
  exists_metadata := ⟨_, LawfulResource.member_metadata a⟩
  version_ne_obj ms := by
    rw [versionPath, (hasMetadata_toJson a).at?_metadata, Metadata.find?_version]
    cases (Resource.metadata a).resourceVersion <;> exact nofun

theorem conditionalOn_toJson (old new : α) :
    ConditionalOn (Resource.metadata old).resourceVersion (Resource.toJson old)
      (Resource.toJson new) :=
  (isDocument_toJson old).conditionalOn (isDocument_toJson new) _

end

end Object

end SparkLedger

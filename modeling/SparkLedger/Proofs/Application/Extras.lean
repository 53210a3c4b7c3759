import SparkLedger.Proofs.Json.Extend
import SparkLedger.Proofs.Object.Patch

/-!
# Records with members of other writers

A record that is stored may have members that nothing here writes: those of later versions of the
record, and those that the cluster keeps of every object. A write is a patch that is computed from
what is written here, so it cannot name them, and they outlast it.

* `Application.declared`: the members that the structs of a record are written with.
* `Application.Foreign`: members of other writers in the structs of a record.
* `Application.extras_kept_by_patch`: after a write the record is the second one, with the same
  members of other writers at the same places.
-/

namespace SparkLedger

/-- What is present has one of the names that were given. -/
theorem Json.mem_keys_of_mem_present {ps : List (String × Option Json)} {m : String × Json}
    (h : m ∈ present ps) : m.1 ∈ ps.map (·.1) := by
  obtain ⟨p, hp, hm⟩ := List.mem_filterMap.1 h
  obtain ⟨v, -, rfl⟩ := Option.map_eq_some_iff.1 hm
  exact List.mem_map_of_mem hp

namespace Application

open Json (Extras extend)
open Object (conditionalPatch?)

/-! ## Declared members -/

/-- The structs of a record by their paths, each with the names that it is written with. Structs
that are items of a list or entries of a map are not among them. -/
def declared : List (List String × List String) :=
  [([], ["apiVersion", "kind", "metadata", "spec"]),
    (["metadata"], ["deletionTimestamp", "finalizers", "labels", "name", "namespace",
      "ownerReferences", "resourceVersion", "uid"]),
    (["spec"], ["applicationId", "applicationName", "driver", "executors", "heritage",
      "runStatistics", "sparkProperties", "stageMetrics"]),
    (["spec", "driver"], ["containerStatuses", "deleted", "name", "namespace", "phase", "uid"]),
    (["spec", "runStatistics"], ["attempts", "totalExecutorCpuTime", "totalInputBytes",
      "totalOutputBytes"]),
    (["spec", "stageMetrics"], ["activeStageMetrics", "maxProcessedFinalizedStageId"])]

variable {a b : Application} {e : Extras} {path names : List String}

private theorem at?_driver (a : Application) :
    a.toJson.at? ["spec", "driver"] = a.spec.driver.map Pod.Snapshot.toJson := by
  simp [toJson, Spec.toJson, Json.at?, Json.member?, Json.ofPresent_eq, Json.find?_present_cons,
    Assoc.find?_cons]

private theorem at?_statistics (a : Application) :
    a.toJson.at? ["spec", "runStatistics"] = some a.spec.statistics.toJson := by
  simp [toJson, Spec.toJson, Json.at?, Json.member?, Json.ofPresent_eq, Json.find?_present_cons,
    Assoc.find?_cons]

private theorem at?_ledger (a : Application) :
    a.toJson.at? ["spec", "stageMetrics"] = a.spec.stageLedger.map Ledger.toJson := by
  simp [toJson, Spec.toJson, Json.at?, Json.member?, Json.ofPresent_eq, Json.find?_present_cons,
    Assoc.find?_cons]

/-- A struct is written as an object, with declared members only. -/
theorem exists_members_of_declared (h : Assoc.find? path declared = some names) {j : Json}
    (hj : a.toJson.at? path = some j) : ∃ ms, j = .obj ms ∧ ∀ m ∈ ms, m.1 ∈ names := by
  have h := Assoc.mem_of_find? h
  simp only [declared, List.mem_cons, Prod.mk.injEq, List.not_mem_nil, or_false] at h
  rcases h with ⟨rfl, rfl⟩ | ⟨rfl, rfl⟩ | ⟨rfl, rfl⟩ | ⟨rfl, rfl⟩ | ⟨rfl, rfl⟩ | ⟨rfl, rfl⟩
  · cases hj
    exact ⟨_, rfl, by simp⟩
  · cases hj
    exact ⟨_, rfl, fun m => Json.mem_keys_of_mem_present⟩
  · cases hj
    exact ⟨_, rfl, fun m => Json.mem_keys_of_mem_present⟩
  · rw [at?_driver, Option.map_eq_some_iff] at hj
    obtain ⟨driver, -, rfl⟩ := hj
    exact ⟨_, rfl, fun m => Json.mem_keys_of_mem_present⟩
  · rw [at?_statistics] at hj
    cases hj
    exact ⟨_, rfl, by simp⟩
  · rw [at?_ledger, Option.map_eq_some_iff] at hj
    obtain ⟨ledger, -, rfl⟩ := hj
    exact ⟨_, rfl, by simp⟩

/-- A record has the structs of another if it has its driver and its ledger. -/
theorem isSome_at?_of_declared (h : Assoc.find? path declared = some names)
    (hdriver : a.spec.driver.isSome → b.spec.driver.isSome)
    (hledger : a.spec.stageLedger.isSome → b.spec.stageLedger.isSome)
    (ha : (a.toJson.at? path).isSome) : (b.toJson.at? path).isSome := by
  have h := Assoc.mem_of_find? h
  simp only [declared, List.mem_cons, Prod.mk.injEq, List.not_mem_nil, or_false] at h
  rcases h with ⟨rfl, -⟩ | ⟨rfl, -⟩ | ⟨rfl, -⟩ | ⟨rfl, -⟩ | ⟨rfl, -⟩ | ⟨rfl, -⟩
  · rfl
  · rfl
  · rfl
  · rw [at?_driver, Option.isSome_map] at ha ⊢
    exact hdriver ha
  · rw [at?_statistics]
    rfl
  · rw [at?_ledger, Option.isSome_map] at ha ⊢
    exact hledger ha

/-! ## Members of other writers -/

/-- Members of other writers: they are in structs of the record, under names that are not
declared. -/
def Foreign (e : Extras) (a : Application) : Prop :=
  ∀ path k v, (e path).find? k = some v →
    (a.toJson.at? path).isSome ∧ ∃ names, Assoc.find? path declared = some names ∧ k ∉ names

namespace Foreign

theorem placed (h : Foreign e a) : e.Placed a.toJson := by
  intro path k v hv
  obtain ⟨hpath, names, hnames, -⟩ := h path k v hv
  obtain ⟨j, hj⟩ := Option.isSome_iff_exists.1 hpath
  obtain ⟨ms, rfl, -⟩ := exists_members_of_declared hnames hj
  exact ⟨ms, hj⟩

theorem newIn (h : Foreign e a) : e.NewIn a.toJson := by
  intro path k v hv
  obtain ⟨hpath, names, hnames, hk⟩ := h path k v hv
  obtain ⟨j, hj⟩ := Option.isSome_iff_exists.1 hpath
  obtain ⟨ms, rfl, hkeys⟩ := exists_members_of_declared hnames hj
  rw [Json.at?_append, hj, Option.bind_some, Json.at?_singleton, Json.member?,
    Assoc.find?_eq_none_iff]
  rintro m hm rfl
  exact hk (hkeys m hm)

/-- They have their places in every record with the same structs. -/
theorem of_structs (h : Foreign e a)
    (hdriver : a.spec.driver.isSome → b.spec.driver.isSome)
    (hledger : a.spec.stageLedger.isSome → b.spec.stageLedger.isSome) : Foreign e b := by
  intro path k v hv
  obtain ⟨hpath, names, hnames, hk⟩ := h path k v hv
  exact ⟨isSome_at?_of_declared hnames hdriver hledger hpath, names, hnames, hk⟩

/-- None of them has a declared name. -/
theorem find?_eq_none_of_declared (h : Foreign e a)
    (hnames : Assoc.find? path declared = some names) {k : String} (hk : k ∈ names) :
    (e path).find? k = none := by
  refine Option.eq_none_iff_forall_ne_some.2 fun v hv => ?_
  obtain ⟨-, names', hnames', hk'⟩ := h path k v hv
  rw [hnames] at hnames'
  exact hk' (Option.some.inj hnames' ▸ hk)

/-- With them the record has metadata still, and the same version. -/
theorem exists_hasMetadata_extend (h : Foreign e a) :
    ∃ ms metadata, Object.HasMetadata (extend e a.toJson) ms metadata ∧
      Assoc.find? "resourceVersion" metadata = a.metadata.resourceVersion.map .str := by
  obtain ⟨ms, hms, hasc, hfind⟩ := Json.exists_extend_eq (e := e)
    (Object.ascending_members a).distinct fun _ _ => h.newIn.find?_eq_none
  have hnew : (e.under "metadata").NewIn a.metadata.toJson := h.newIn.under rfl
  obtain ⟨metadata, hmetadata, hascm, hfindm⟩ := Json.exists_extend_eq (e := e.under "metadata")
    a.metadata.ascending_members.distinct fun _ _ => hnew.find?_eq_none
  refine ⟨ms, metadata, ⟨hms, hasc, ?_, hascm⟩, ?_⟩
  · rw [hfind, Object.find?_metadata]
    exact congrArg some hmetadata
  · have hnone : (e ["metadata"]).find? "resourceVersion" = none :=
      h.find?_eq_none_of_declared rfl (by decide)
    rw [hfindm, Object.Metadata.find?_version, Extras.under, hnone, Option.or_none]
    cases a.metadata.resourceVersion with
    | none => rfl
    | some version => simp [extend]

end Foreign

/-! ## Writes -/

/-- A write of a record keeps all members of other writers. If the second record has the metadata
of the first, and a driver and a ledger if the first has them, then the patch between the two makes
of the first one with further members the second one with the same members at the same places. If
there is no patch, it is that already. -/
theorem extras_kept_by_patch (hmeta : b.metadata = a.metadata)
    (hdriver : a.spec.driver.isSome → b.spec.driver.isSome)
    (hledger : a.spec.stageLedger.isSome → b.spec.stageLedger.isSome) (he : Foreign e a) :
    (conditionalPatch? a b).elim (extend e a.toJson) (·.merge (extend e a.toJson)) =
        extend e b.toJson ∧
      ∀ path k v, (e path).find? k = some v → (extend e b.toJson).at? (path ++ [k]) = some v := by
  have he' := he.of_structs hdriver hledger
  refine ⟨?_, fun path k v =>
    Json.at?_extend (faithful.plain b).isValue he'.placed he'.newIn⟩
  cases hp : conditionalPatch? a b with
  | none =>
    rw [Object.eq_of_conditionalPatch?_eq_none hp]
    rfl
  | some p =>
    obtain ⟨ms, metadata, hstored, hversion⟩ := he.exists_hasMetadata_extend
    rw [Option.elim_some, hstored.merge_conditionalPatch? hversion hp hmeta]
    exact Json.merge_diff_extend (faithful.plain a) (faithful.plain b) he.placed he.newIn he'.newIn

/-- A record with all its structs. -/
def fullRecord : Application where
  metadata := { Object.Metadata.empty with
    name := some "spark-1"
    ns := some "jobs"
    resourceVersion := some "7" }
  spec := ⟨"spark-1", "pi", some .submit, some ⟨"u-1", "jobs", "driver", some "Pending", [], false⟩,
    [], .ofList [("spark.cores", "1"), ("spark.ui", "off")], .zero,
    some ⟨Ledger.noStage, .ofList [(Ledger.noStage, ⟨0, 0, 0⟩)]⟩⟩

/-- The record later: an option is gone, another has come, a list and maps have changed. -/
def fullRecordLater : Application :=
  { fullRecord with
    spec.heritage := none
    spec.driver := some ⟨"u-1", "jobs", "driver", none,
      [⟨"spark", true, 0, .running, none, none⟩], true⟩
    spec.executors := [⟨"u-2", "jobs", "exec-1", none, [], false⟩]
    spec.properties := .ofList [("spark.ui", "on")]
    spec.stageLedger := some ⟨0, .empty⟩ }

/-- Two members of another writer in every struct, one of them null. -/
def notes : Extras := fun path =>
  if (Assoc.find? path declared).isSome then
    .ofList [("annotations", .obj [("by", .null)]), ("note", .null)]
  else .empty

theorem extras_kept_by_patch_notes :
    Foreign notes fullRecord ∧ ∃ p, conditionalPatch? fullRecord fullRecordLater = some p ∧
      p.merge (extend notes fullRecord.toJson) = extend notes fullRecordLater.toJson ∧
      (extend notes fullRecordLater.toJson).at? ["spec", "driver", "note"] = some .null := by
  have hstructs : ∀ d ∈ declared, (fullRecord.toJson.at? d.1).isSome = true ∧
      "annotations" ∉ d.2 ∧ "note" ∉ d.2 := by decide +kernel
  have hforeign : Foreign notes fullRecord := by
    intro path k v hv
    rw [notes] at hv
    split at hv
    · rename_i hpath
      obtain ⟨names, hnames⟩ := Option.isSome_iff_exists.1 hpath
      obtain ⟨hstruct, hannotations, hnote⟩ := hstructs _ (Assoc.mem_of_find? hnames)
      refine ⟨hstruct, names, hnames, ?_⟩
      have hk := SortedMap.mem_of_mem_ofList (SortedMap.mem_toList_iff.2 hv)
      simp only [List.mem_cons, Prod.mk.injEq, List.not_mem_nil, or_false] at hk
      rcases hk with ⟨rfl, -⟩ | ⟨rfl, -⟩
      · exact hannotations
      · exact hnote
    · cases hv
  obtain ⟨hmerge, hplaces⟩ := extras_kept_by_patch (a := fullRecord) (b := fullRecordLater) rfl
    (fun _ => rfl) (fun _ => rfl) hforeign
  obtain ⟨p, hp⟩ : ∃ p, conditionalPatch? fullRecord fullRecordLater = some p := ⟨_, rfl⟩
  rw [hp] at hmerge
  exact ⟨hforeign, p, hp, hmerge, hplaces ["spec", "driver"] "note" .null rfl⟩

end Application

end SparkLedger

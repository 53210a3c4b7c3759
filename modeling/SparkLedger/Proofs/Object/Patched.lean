import SparkLedger.Proofs.Object.Stored

/-!
# Patched records, read back

A patch is computed from a record as it is written here, and applied to the record as it is
stored. The metadata stay as they are then. The specification reads as the one that was meant,
with one exception: where no statistics are stored, the patch leaves out the totals that are zero,
and statistics that lack a total cannot be read.

* `Object.exists_hasMetadata_merge_of_metadata_eq`: the members of a patched document.
* `Application.patched_record_reads_back`: exactly when a patched record reads as the record that
  was meant.
* `Application.partial_totals_unreadable`: a patch that makes a record unreadable.
-/

namespace SparkLedger

open Json (mergedMember diffMember mergeMembers find?_mergeMembers)

namespace Object

variable {α : Type} [Resource α] [LawfulResource α] {old new : α} {j p : Json}
  {ms metadata : List (String × Json)}

/-- A patch between objects of the same metadata leaves the metadata of a document alone, and
changes its other members one by one. -/
theorem exists_hasMetadata_merge_of_metadata_eq (h : HasMetadata j ms metadata)
    (hread : Metadata.ofJson? (.obj metadata) = some (Resource.metadata old))
    (hp : conditionalPatch? old new = some p)
    (hmeta : Resource.metadata new = Resource.metadata old) :
    ∃ ms', HasMetadata (p.merge j) ms' metadata ∧
      ∀ k, k ≠ "metadata" → Assoc.find? k ms' = mergedMember (diffMember
        (Assoc.find? k (Resource.toJson old).members)
        (Assoc.find? k (Resource.toJson new).members)) (Assoc.find? k ms) := by
  obtain ⟨pd, pm, rfl, hpd, hpmd, hpm, hmembers, hmetadata, hversion⟩ :=
    exists_members_of_conditionalPatch? hp (congrArg Metadata.resourceVersion hmeta)
  have hmerged := h.merge hpd hpm
  have hkept : mergeMembers pm metadata = metadata := by
    refine hmerged.ascending_metadata.ext_find? h.ascending_metadata fun k => ?_
    rw [find?_mergeMembers hpmd]
    by_cases hk : k = "resourceVersion"
    · -- The patch names the version that is stored.
      have hstored := ((Metadata.ofJson?_obj_eq_some_iff h.ascending_metadata.distinct).1
        hread).2.2.2.2.2.2.2
      rw [hk, hversion]
      cases hv : (Resource.metadata old).resourceVersion with
      | none => rfl
      | some version =>
        rw [hv, Json.nullably_asString?_eq_some_iff] at hstored
        rw [hstored]
        rfl
    · rw [hmetadata k hk, hmeta, Json.diffMember_self]
      rfl
  rw [hkept] at hmerged
  refine ⟨_, hmerged, fun k hk => ?_⟩
  rw [find?_mergeMembers hpd, hmembers k hk]

end Object

namespace Application

open Object (conditionalPatch? conditionalPatch?_eq_none_iff Resource)

variable {j p : Json} {a b : Application}

/-- What a patched record reads as. -/
theorem ofJson?_merge (hj : j.IsValue) (hnamed : Named j) (ha : ofJson? j = some a)
    (hmeta : b.metadata = a.metadata) (hp : conditionalPatch? a b = some p) :
    ofJson? (p.merge j) =
      if (j.at? ["spec", "runStatistics"]).isSome ∨ b.spec.statistics.Whole then some b
      else none := by
  obtain ⟨ms, metadata, h⟩ := exists_hasMetadata hj hnamed.ne_arr ha
  have hread := ofJson?_metadata h ha
  obtain ⟨ms', h', hmembers⟩ := Object.exists_hasMetadata_merge_of_metadata_eq h hread hp hmeta
  rw [h.eq_obj] at hj hnamed ha
  obtain ⟨-, hspec⟩ := (ofJson?_obj_eq_some_iff h.ascending.distinct).1 ha
  have hmerged := hnamed.ofJson?_mergedSpec hj hspec b.spec
  have hspec' : Assoc.find? "spec" ms' = mergedMember (diffMember (some a.spec.toJson)
      (some b.spec.toJson)) (Assoc.find? "spec" ms) := hmembers "spec" (by decide)
  rw [← hspec'] at hmerged
  rw [h'.eq_obj, h.eq_obj]
  by_cases hreadable :
    ((Json.obj ms).at? ["spec", "runStatistics"]).isSome ∨ b.spec.statistics.Whole
  · rw [if_pos hreadable] at hmerged ⊢
    rw [ofJson?_obj_eq_some_iff h'.ascending.distinct, h'.find?_metadata, hmeta]
    exact ⟨hread, hmerged⟩
  · rw [if_neg hreadable] at hmerged ⊢
    refine Option.eq_none_iff_forall_ne_some.2 fun c hc => ?_
    obtain ⟨-, hc⟩ := (ofJson?_obj_eq_some_iff h'.ascending.distinct).1 hc
    cases hmerged.symm.trans hc

/-- A record that was patched reads as the record that was meant exactly if its statistics were
stored, or the new ones are those of nothing, or none of their totals is zero. If there is nothing
to patch, it reads so as it is. -/
theorem patched_record_reads_back (hj : j.IsValue) (hnamed : Named j) (ha : ofJson? j = some a)
    (hmeta : b.metadata = a.metadata) :
    (conditionalPatch? a b = none → ofJson? j = some b) ∧
    ∀ p, conditionalPatch? a b = some p →
      ofJson? (p.merge j) =
        if (j.at? ["spec", "runStatistics"]).isSome ∨ b.spec.statistics.Whole then some b
        else none := by
  refine ⟨fun hp => ?_, fun p hp => ofJson?_merge hj hnamed ha hmeta hp⟩
  rw [← conditionalPatch?_eq_none_iff.1 hp]
  exact ha

/-- The record after a poll: totals, a property, and a stage that was active and has gone on. -/
def polled (a : Application) : Application :=
  let n (i : Fin 11) : Signed64 := ⟨i, by omega, by omega⟩
  { a with
    spec.statistics := ⟨n 5, n 6, n 7, []⟩
    spec.properties := .ofList [("spark.app.name", "pi")]
    spec.stageLedger := some ⟨Ledger.noStage, .ofList [(n 3, ⟨n 1, n 2, n 9⟩)]⟩ }

/-- A record that was stored by hand: members of its own, null for a driver, and neither statistics
nor properties nor a watermark. -/
def looseRecord : Json :=
  .obj [
    ("kind", .str "SparkApplication"),
    ("metadata", .obj [("managedFields", .arr [.null]), ("name", .str "spark-1"),
      ("namespace", .str "jobs"), ("resourceVersion", .str "7")]),
    ("spec", .obj [
      ("applicationId", .str "spark-1"),
      ("driver", .null),
      ("note", .obj [("by", .null)]),
      ("stageMetrics", .obj [("activeStageMetrics",
        .obj [("3", .obj [("cpuTime", .int 4), ("inputBytes", .int 2), ("outputBytes", .int 1),
          ("since", .str "today")])])])])]

theorem patched_record_reads_back_looseRecord :
    looseRecord.IsValue ∧ Named looseRecord ∧
      ∃ a p, ofJson? looseRecord = some a ∧ conditionalPatch? a (polled a) = some p ∧
        looseRecord.at? ["spec", "runStatistics"] = none ∧
        ofJson? (p.merge looseRecord) = some (polled a) := by
  have hvalue : looseRecord.IsValue := @Json.isValue_of_normal? looseRecord _ rfl
  have hnamed : Named looseRecord := by
    intro id path hpath xs h
    simp only [structs, List.mem_cons, List.not_mem_nil, or_false] at hpath
    rcases hpath with rfl | rfl | rfl | rfl | rfl | rfl <;>
      simp [looseRecord, Json.at?, Json.member?, Assoc.find?_cons] at h
  obtain ⟨a, ha⟩ : ∃ a, ofJson? looseRecord = some a := ⟨_, rfl⟩
  have hchanges : conditionalPatch? a (polled a) ≠ none := by
    rw [Ne, conditionalPatch?_eq_none_iff]
    cases ha
    decide +kernel
  obtain ⟨p, hp⟩ := Option.ne_none_iff_exists'.1 hchanges
  have hread := (patched_record_reads_back hvalue hnamed ha (b := polled a) rfl).2 p hp
  rw [if_pos (.inr (.inr (by cases ha; decide +kernel)))] at hread
  exact ⟨hvalue, hnamed, a, p, ha, hp, rfl, hread⟩

/-- A record that says no more than it has to. -/
def bareRecord : Json :=
  .obj [
    ("metadata", .obj [("name", .str "spark-123"), ("namespace", .str "jobs"),
      ("resourceVersion", .str "1")]),
    ("spec", .obj [("applicationId", .str "spark-123")])]

/-- The record after its first bytes were read. -/
def begun (a : Application) : Application :=
  let n (i : Fin 11) : Signed64 := ⟨i, by omega, by omega⟩
  { a with spec.statistics.totalInputBytes := n 5 }

/-- Where no statistics are stored, a patch with one total only makes the record unreadable. -/
theorem partial_totals_unreadable :
    bareRecord.IsValue ∧ Named bareRecord ∧
      ∃ a p, ofJson? bareRecord = some a ∧ conditionalPatch? a (begun a) = some p ∧
        ofJson? (p.merge bareRecord) = none := by
  have hvalue : bareRecord.IsValue := @Json.isValue_of_normal? bareRecord _ rfl
  have hnamed : Named bareRecord := by
    intro id path hpath xs h
    simp only [structs, List.mem_cons, List.not_mem_nil, or_false] at hpath
    rcases hpath with rfl | rfl | rfl | rfl | rfl | rfl <;>
      simp [bareRecord, Json.at?, Json.member?, Assoc.find?_cons] at h
  exact ⟨hvalue, hnamed, _, _, rfl, rfl, rfl⟩

end Application

end SparkLedger

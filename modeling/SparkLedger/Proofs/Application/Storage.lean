import SparkLedger.Proofs.Application.Stored
import SparkLedger.Proofs.Json.Reread

/-!
# Applications in storage

The specification of an application is stored as text. What is read of that text is the
specification again, although the names of its properties can be any texts, and the document behind
the text need not come back as it was: a name that blurs marks the property under it. No other key
of a record blurs, so everything but the properties comes back as it was printed.

* `legible`, of each kind of record: what is printed of it is legible, and no key blurs.
  `Ledger.blurs_key`: nor does the id of a stage.
* `Application.Spec.legible`: the whole is legible, with any keys.
* `Application.Spec.ofJson?_reread`: what its printed document reads as.
* `Application.Spec.survives_storage`: a specification, in its document and in its text.
-/

namespace SparkLedger

open Json (Faithful Legible legible_obj legible_arr legible_ofPresent legible_ofMap blurs reread
  rereadMembers reread_of_legible find?_rereadMembers distinct_rereadMembers find?_present_cons)

/-! ## Records -/

theorem Application.Attempt.legible (a : Attempt) : Legible (blurs · = false) 1 a.toJson := by
  simp +decide [toJson, legible_obj]

theorem Application.Statistics.legible (s : Statistics) :
    Legible (blurs · = false) 3 s.toJson := by
  simp +decide [toJson, legible_obj, legible_arr, Attempt.legible]

theorem Stage.Metrics.legible (m : Metrics) : Legible (blurs · = false) 1 m.toJson := by
  simp +decide [toJson, legible_obj]

/-- The ids of stages show as they are. -/
theorem Ledger.blurs_key (id : Signed64) : blurs (key id) = false := by
  have hdigits : ∀ c ∈ Nat.toDigits 10 id.val.natAbs, Json.escaped c = [c] := fun c hc =>
    Json.escaped_of_isDigit (Json.isDigit_of_mem_toDigits hc)
  refine Json.blurs_eq_false ?_
  rw [key, Text.Decimal.text, String.toList_ofList]
  split
  · exact List.forall_mem_cons.2 ⟨rfl, hdigits⟩
  · exact hdigits

theorem Ledger.legible (l : Ledger) : Legible (blurs · = false) 3 l.toJson := by
  have hactive : Legible (blurs · = false) 2 (.ofMap Stage.Metrics.toJson
      (.ofList (l.active.toList.map fun e => (key e.1, e.2)))) := by
    refine legible_ofMap fun e he => ?_
    obtain ⟨⟨id, m⟩, -, rfl⟩ := List.mem_map.1 (SortedMap.mem_of_mem_ofList he)
    exact ⟨blurs_key id, m.legible⟩
  have hnames : blurs "activeStageMetrics" = false ∧
      blurs "maxProcessedFinalizedStageId" = false := by decide
  rw [toJson, legible_obj]
  refine List.forall_mem_cons.2 ⟨⟨hnames.1, hactive⟩, ?_⟩
  exact List.forall_mem_singleton.2 ⟨hnames.2, Json.legible_signed64 l.watermark⟩

theorem Pod.ContainerSnapshot.legible (s : ContainerSnapshot) :
    Legible (blurs · = false) 1 s.toJson := by
  refine legible_ofPresent ?_
  simp +decide +contextual

theorem Pod.Snapshot.legible (s : Snapshot) : Legible (blurs · = false) 3 s.toJson := by
  refine legible_ofPresent ?_
  simp +decide +contextual [legible_arr, ContainerSnapshot.legible]

/-- A specification is legible, whatever its properties are named. -/
theorem Application.Spec.legible (s : Spec) : Legible (fun _ => True) 5 s.toJson := by
  have hany {m n : Nat} {j : Json} (h : Legible (blurs · = false) m j) (hmn : m ≤ n) :
      Legible (fun _ => True) n j := h.mono (fun _ _ => trivial) hmn
  have hdriver (d : Pod.Snapshot) := hany (n := 4) d.legible (by decide)
  have hexecutor (d : Pod.Snapshot) := hany d.legible (Nat.le_refl 3)
  have hstatistics := hany (n := 4) s.statistics.legible (by decide)
  have hledger (l : Ledger) := hany (n := 4) l.legible (by decide)
  have hproperties : Legible (fun _ => True) 4 (.ofMap .str s.properties) :=
    legible_ofMap fun e _ => ⟨trivial, Json.legible_str e.2⟩
  refine legible_ofPresent ?_
  simp +contextual [legible_arr, hdriver, hexecutor, hstatistics, hledger, hproperties]

/-! ## Storage -/

namespace Json

variable {α : Type} {write : α → Json} {read : Json → Option α}

/-- What a field that may be absent reads as, if printing changes none of its values. -/
theorem nullably_reread (h : Faithful write read) (hsame : ∀ a, reread (write a) = write a)
    (o : Option α) : nullably read ((o.map write).map reread) = some o := by
  cases o with
  | none => rfl
  | some a =>
    rw [Option.map_some, Option.map_some, hsame, nullably,
      asNullable?_of_ne_null read (h.plain a).ne_null, h.read_write]
    rfl

/-- A map of texts reads the same after printing, whatever the texts. -/
theorem asTextMap?_reread (m : SortedMap String String) :
    asTextMap? asString? (reread (.ofMap .str m)) = some m := by
  have hread (es : List (String × String)) :
      (rereadMembers (es.map fun e => (e.1, .str e.2))).mapM
        (fun e => do return ((← some e.1), (← asString? e.2.undisguised))) = some es := by
    induction es with
    | nil => rfl
    | cons e es ih =>
      -- A key that blurs marks the text under it, and no mark is read.
      have hmarked : asString? (marked e.1 (reread (.str e.2))).undisguised = some e.2 := by
        unfold marked
        split <;> rfl
      rw [List.map_cons, rereadMembers, List.mapM_cons, ih, hmarked]
      rfl
  exact (congrArg (Option.map SortedMap.ofList) (hread m.toList)).trans (by simp)

end Json

namespace Application.Spec

/-- A specification is read from its text as from its document. -/
theorem ofJson?_reread (s : Spec) : ofJson? (reread s.toJson) = some s := by
  have hdistinct : Assoc.Distinct s.toJson.members :=
    (Json.plain_obj.1 (faithful.plain s)).1.distinct
  have hdriver (d : Pod.Snapshot) : reread d.toJson = d.toJson := reread_of_legible d.legible
  have hexecutors : reread (.arr (s.executors.map Pod.Snapshot.toJson)) =
      .arr (s.executors.map Pod.Snapshot.toJson) := by
    refine reread_of_legible (n := 4) (legible_arr.2 fun x hx => ?_)
    obtain ⟨d, -, rfl⟩ := List.mem_map.1 hx
    exact d.legible
  have hstatistics : reread s.statistics.toJson = s.statistics.toJson :=
    reread_of_legible s.statistics.legible
  have hledger (l : Ledger) : reread l.toJson = l.toJson := reread_of_legible l.legible
  have hobj : reread s.toJson = .obj (rereadMembers s.toJson.members) := rfl
  rw [hobj, ofJson?_obj_eq_some_iff (distinct_rereadMembers hdistinct)]
  simp +decide only [find?_rereadMembers]
  simp only [toJson, Json.ofPresent_eq, Json.members, find?_present_cons, String.reduceEq,
    ↓reduceIte, Json.present_nil, Assoc.find?_nil, Option.or_none, Option.map_some,
    Option.elim_some, hexecutors, hstatistics]
  exact ⟨rfl, rfl, Json.nullably_reread Heritage.faithful (fun _ => rfl) _,
    Json.nullably_reread Pod.Snapshot.faithful hdriver _,
    Pod.Snapshot.faithful.list.read_write _, Json.asTextMap?_reread _,
    Statistics.faithful.read_write _, Json.nullably_reread Ledger.faithful hledger _⟩

/-- A specification that is written reads as itself, in its document and in its text, and there is
no null in what is written. -/
theorem survives_storage (s : Spec) :
    ofJson? s.toJson = some s ∧ s.toJson.Everywhere (· ≠ .null) ∧
      ∃ j, Json.ofBytes? s.toJson.text.toUTF8 = some j ∧ ofJson? j = some s := by
  have htext := Json.ofBytes?_text s.legible (by decide)
  exact ⟨faithful.read_write s, (faithful.plain s).mono fun _ h => h.2.1,
    _, htext, ofJson?_reread s⟩

end Application.Spec

end SparkLedger

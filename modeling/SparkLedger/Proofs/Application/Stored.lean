import SparkLedger.Proofs.Application.Codec
import SparkLedger.Proofs.Json.Follows

/-!
# Stored records of applications

The record of an application that is stored may be written otherwise than here: with members of
its own, without what defaults, with null for absence. A change of the specification arrives in
it all the same: the changed record reads as the changed specification. One statement for each
kind of record that is changed member by member, from the parts up.

The statistics are the exception. They may be absent, but none of their totals may. If they are,
a change has only those totals that are not zero, and what it leaves cannot be read.

* `Application.Statistics.Whole`: the statistics that can be put where none are stored.
* `Application.Spec.ofJson?_merge_diff`: what a changed specification reads as.
-/

namespace SparkLedger

open Json (Faithful faithful_str faithful_bool faithful_int Follows IsValue isValue_obj
  exists_merge_diff_eq follows_of_ne_obj follows_keyed follows_textMap
  nullably_mergedMember mergedMember diffMember diff nullably optionally optionally_find?_of_asMap?
  exists_name_of_asMap? asRanged? asBool? asString? asList? asMap? asTextMap?)
open Json.Record (read_of_reads reads_pure reads_required reads_defaulted reads_optional
  exists_members_of_read)

variable {ms : List (String × Json)}

/-! ## Metrics and ledgers -/

namespace Stage.Metrics

theorem ofJson?_obj_eq_some_iff (h : Assoc.Distinct ms) {m : Metrics} :
    ofJson? (.obj ms) = some m ↔
      (Assoc.find? "outputBytes" ms).elim none asRanged? = some m.outputBytes ∧
      (Assoc.find? "inputBytes" ms).elim none asRanged? = some m.inputBytes ∧
      (Assoc.find? "cpuTime" ms).elim none asRanged? = some m.cpuTime := by
  have hreads : ofJson? (.obj ms) = _ := read_of_reads <|
    (reads_required h ..).bind fun _ => (reads_required h ..).bind fun _ =>
      (reads_required h ..).bind fun _ => reads_pure _
  rw [hreads]
  simp only [Option.bind_eq_some_iff, Option.some.injEq]
  constructor
  · rintro ⟨_, ho, _, hi, _, hc, rfl⟩
    exact ⟨ho, hi, hc⟩
  · rintro ⟨ho, hi, hc⟩
    exact ⟨_, ho, _, hi, _, hc, rfl⟩

theorem follows {m : Metrics} (h : Assoc.Ascending ms) (hm : ofJson? (.obj ms) = some m) :
    Follows toJson ofJson? m (.obj ms) := by
  intro b
  obtain ⟨ho, hi, hc⟩ := (ofJson?_obj_eq_some_iff h.distinct).1 hm
  obtain ⟨ns, heq, hns, hfind⟩ :=
    exists_merge_diff_eq faithful (fun _ => rfl) m b (.obj ms) h
  have hint := follows_of_ne_obj faithful_int (fun (_ : Signed64) _ h => by cases h)
  rw [heq, ofJson?_obj_eq_some_iff hns, hfind, hfind, hfind]
  simp only [toJson, Json.members, Assoc.find?_cons, String.reduceEq, ↓reduceIte]
  exact ⟨(hint _ _).present faithful_int ho _, (hint _ _).present faithful_int hi _,
    (hint _ _).present faithful_int hc _⟩

end Stage.Metrics

namespace Ledger

theorem ofKey?_eq_some_iff (s : String) (id : Signed64) : ofKey? s = some id ↔ s = key id := by
  constructor
  · intro h
    obtain ⟨i, hi, hid⟩ := Option.bind_eq_some_iff.1 h
    rw [key, Ranged.ofInt?_eq_some_iff.1 hid]
    exact Text.Decimal.eq_text_of_ofText? hi
  · rintro rfl
    exact ofKey?_key id

theorem ofJson?_obj_eq_some_iff (h : Assoc.Distinct ms) {l : Ledger} :
    ofJson? (.obj ms) = some l ↔
      (Assoc.find? "maxProcessedFinalizedStageId" ms).elim (some noStage) asRanged? =
        some l.watermark ∧
      (Assoc.find? "activeStageMetrics" ms).elim (some .empty)
        (asMap? ofKey? Stage.Metrics.ofJson?) = some l.active := by
  have hreads : ofJson? (.obj ms) = _ := read_of_reads <|
    (reads_defaulted h ..).bind fun _ => (reads_defaulted h ..).bind fun _ => reads_pure _
  rw [hreads]
  simp only [Option.bind_eq_some_iff, Option.some.injEq]
  constructor
  · rintro ⟨_, hw, _, ha, rfl⟩
    exact ⟨hw, ha⟩
  · rintro ⟨hw, ha⟩
    exact ⟨_, hw, _, ha, rfl⟩

/-- The metrics of active stages, some of which may be stored. -/
private theorem follows_active {active : SortedMap Signed64 Stage.Metrics} {stored : Option Json}
    (hstored : ∀ j, stored = some j → IsValue j)
    (hnamed : ∀ ns id xs, stored = some (.obj ns) → Assoc.find? id ns ≠ some (.arr xs))
    (h : stored.elim (some .empty) (asMap? ofKey? Stage.Metrics.ofJson?) = some active) :
    Follows (fun m : SortedMap Signed64 Stage.Metrics =>
      .ofMap Stage.Metrics.toJson (.ofList (m.toList.map fun e => (key e.1, e.2))))
      (asMap? ofKey? Stage.Metrics.ofJson?) active (stored.getD .null) := by
  have hnull : Stage.Metrics.ofJson? .null = none := rfl
  cases stored with
  | none =>
    cases h
    refine follows_keyed Stage.Metrics.faithful hnull ofKey?_eq_some_iff .nil ?_ (fun _ => rfl) ?_
    · simp [Json.members]
    · simp [Json.members]
  | some j =>
    cases j with
    | obj ns =>
      obtain ⟨hasc, hvals⟩ := isValue_obj.1 (hstored _ rfl)
      refine follows_keyed Stage.Metrics.faithful hnull ofKey?_eq_some_iff hasc
        (fun _ _ => exists_name_of_asMap? ofKey?_eq_some_iff h)
        (optionally_find?_of_asMap? ofKey?_eq_some_iff hasc.distinct h) fun k v a hv ha => ?_
      have hv : Assoc.find? (key k) ns = some v := hv
      obtain ⟨ms, rfl⟩ := exists_members_of_read ha fun xs hxs =>
        hnamed ns (key k) xs rfl (hxs ▸ hv)
      exact Stage.Metrics.follows (isValue_obj.1 (hvals _ (Assoc.mem_of_find? hv))).1 ha
    | _ => cases h

theorem follows {l : Ledger} (h : IsValue (.obj ms))
    (hnamed : ∀ ns id xs, Assoc.find? "activeStageMetrics" ms = some (.obj ns) →
      Assoc.find? id ns ≠ some (.arr xs))
    (hl : ofJson? (.obj ms) = some l) : Follows toJson ofJson? l (.obj ms) := by
  intro b
  have hasc := (isValue_obj.1 h).1
  obtain ⟨hw, ha⟩ := (ofJson?_obj_eq_some_iff hasc.distinct).1 hl
  obtain ⟨ns, heq, hns, hfind⟩ :=
    exists_merge_diff_eq faithful (fun _ => rfl) l b (.obj ms) hasc
  have hint := follows_of_ne_obj faithful_int (fun (_ : Signed64) _ h => by cases h)
  rw [heq, ofJson?_obj_eq_some_iff hns, hfind, hfind]
  simp only [toJson, Json.members, Assoc.find?_cons, String.reduceEq, ↓reduceIte]
  refine ⟨(hint _ _).present faithful_int hw _, ?_⟩
  exact (follows_active (fun j => h.member) hnamed ha).present
    (Stage.Metrics.faithful.keyed ofKey?_key) ha _

end Ledger

/-! ## Statistics -/

namespace Application.Statistics

theorem ofJson?_obj_eq_some_iff (h : Assoc.Distinct ms) {s : Statistics} :
    ofJson? (.obj ms) = some s ↔
      (Assoc.find? "totalInputBytes" ms).elim none asRanged? = some s.totalInputBytes ∧
      (Assoc.find? "totalOutputBytes" ms).elim none asRanged? = some s.totalOutputBytes ∧
      (Assoc.find? "totalExecutorCpuTime" ms).elim none asRanged? = some s.totalCpuTime ∧
      (Assoc.find? "attempts" ms).elim (some []) (asList? Attempt.ofJson?) = some s.attempts := by
  have hreads : ofJson? (.obj ms) = _ := read_of_reads <|
    (reads_required h ..).bind fun _ => (reads_required h ..).bind fun _ =>
      (reads_required h ..).bind fun _ => (reads_defaulted h ..).bind fun _ => reads_pure _
  rw [hreads]
  simp only [Option.bind_eq_some_iff, Option.some.injEq]
  constructor
  · rintro ⟨_, hi, _, ho, _, hc, _, ha, rfl⟩
    exact ⟨hi, ho, hc, ha⟩
  · rintro ⟨hi, ho, hc, ha⟩
    exact ⟨_, hi, _, ho, _, hc, _, ha, rfl⟩

theorem follows {s : Statistics} (h : Assoc.Ascending ms) (hs : ofJson? (.obj ms) = some s) :
    Follows toJson ofJson? s (.obj ms) := by
  intro b
  obtain ⟨hi, ho, hc, ha⟩ := (ofJson?_obj_eq_some_iff h.distinct).1 hs
  obtain ⟨ns, heq, hns, hfind⟩ :=
    exists_merge_diff_eq faithful (fun _ => rfl) s b (.obj ms) h
  have hint := follows_of_ne_obj faithful_int (fun (_ : Signed64) _ h => by cases h)
  have hlist := follows_of_ne_obj Attempt.faithful.list (fun _ _ h => by cases h)
  rw [heq, ofJson?_obj_eq_some_iff hns, hfind, hfind, hfind, hfind]
  simp only [toJson, Json.members, Assoc.find?_cons, String.reduceEq, ↓reduceIte]
  exact ⟨(hint _ _).present faithful_int hi _, (hint _ _).present faithful_int ho _,
    (hint _ _).present faithful_int hc _, (hlist _ _).present Attempt.faithful.list ha _⟩

/-- Statistics that can be put where none are stored: those of nothing, which change nothing, and
those of which no total is zero. -/
def Whole (s : Statistics) : Prop :=
  s = zero ∨ s.totalInputBytes ≠ 0 ∧ s.totalOutputBytes ≠ 0 ∧ s.totalCpuTime ≠ 0

instance (s : Statistics) : Decidable s.Whole := inferInstanceAs (Decidable (_ ∨ _ ∧ _ ∧ _))

/-- A total that was never stored is there after a change only if it is not zero. -/
private theorem elim_mergedMember_zero (x : Signed64) :
    (mergedMember (diffMember (some (.int 0)) (some (.int x.val))) none).elim none asRanged? =
      if x = 0 then none else some x := by
  by_cases h : x = 0
  · subst h
    rfl
  · have hval : x.val ≠ 0 := fun hx => h (Ranged.ext hx)
    simp [diffMember, Json.same, hval, h, mergedMember, diff, Json.merge, asRanged?]

/-- What a change reads as where no statistics are stored. -/
theorem ofJson?_merge_diff_zero {b : Statistics} (hb : b ≠ zero) :
    ofJson? ((diff zero.toJson b.toJson).merge .null) = if b.Whole then some b else none := by
  obtain ⟨ns, heq, hns, hfind⟩ :=
    exists_merge_diff_eq faithful (fun _ => rfl) zero b .null .nil
  have hlist := follows_of_ne_obj Attempt.faithful.list (fun _ _ h => by cases h)
  have hattempts := (hlist [] .null).absent Attempt.faithful.list b.attempts
  have hread (c : Statistics) : ofJson? (.obj ns) = some c ↔
      (b.totalInputBytes ≠ 0 ∧ b.totalOutputBytes ≠ 0 ∧ b.totalCpuTime ≠ 0) ∧ b = c := by
    have hlookups : ofJson? (.obj ns) = some c ↔
        (if b.totalInputBytes = 0 then none else some b.totalInputBytes) =
          some c.totalInputBytes ∧
        (if b.totalOutputBytes = 0 then none else some b.totalOutputBytes) =
          some c.totalOutputBytes ∧
        (if b.totalCpuTime = 0 then none else some b.totalCpuTime) = some c.totalCpuTime ∧
        some b.attempts = some c.attempts := by
      rw [ofJson?_obj_eq_some_iff hns, hfind, hfind, hfind, hfind, ← elim_mergedMember_zero,
        ← elim_mergedMember_zero, ← elim_mergedMember_zero, ← hattempts]
      simp [toJson, zero, Json.members, Assoc.find?_cons]
    rw [hlookups, Statistics.ext_iff]
    simp only [Option.ite_none_left_eq_some, Option.some.injEq]
    constructor
    · rintro ⟨⟨hi, hi'⟩, ⟨ho, ho'⟩, ⟨hc, hc'⟩, ha⟩
      exact ⟨⟨hi, ho, hc⟩, hi', ho', hc', ha⟩
    · rintro ⟨⟨hi, ho, hc⟩, hi', ho', hc', ha⟩
      exact ⟨⟨hi, hi'⟩, ⟨ho, ho'⟩, ⟨hc, hc'⟩, ha⟩
  rw [heq]
  by_cases hwhole : b.Whole
  · rw [if_pos hwhole, hread]
    exact ⟨hwhole.resolve_left hb, rfl⟩
  · rw [if_neg hwhole, Option.eq_none_iff_forall_ne_some]
    exact fun c hc => hwhole (.inr ((hread c).1 hc).1)

/-- What the statistics read as after a change. -/
theorem ofJson?_mergedMember {s : Statistics} {stored : Option Json}
    (hstored : ∀ j, stored = some j → IsValue j) (hnamed : ∀ xs, stored ≠ some (.arr xs))
    (h : stored.elim (some zero) ofJson? = some s) (b : Statistics) :
    (mergedMember (diffMember (some s.toJson) (some b.toJson)) stored).elim (some zero) ofJson? =
      if stored.isSome ∨ b.Whole then some b else none := by
  cases stored with
  | none =>
    cases h
    refine Json.elim_mergedMember faithful rfl (fun hb => ?_) fun hb => ?_
    · exact if_pos (.inr (.inl hb))
    · simpa using ofJson?_merge_diff_zero hb
  | some j =>
    obtain ⟨ms, rfl⟩ := exists_members_of_read h fun xs hxs => hnamed xs (congrArg some hxs)
    have hasc := (isValue_obj.1 (hstored _ rfl)).1
    rw [if_pos (.inl rfl)]
    exact (follows hasc h).present faithful h b

end Application.Statistics

/-! ## Snapshots -/

namespace Pod.Snapshot

theorem ofJson?_obj_eq_some_iff (h : Assoc.Distinct ms) {s : Snapshot} :
    ofJson? (.obj ms) = some s ↔
      (Assoc.find? "uid" ms).elim none asString? = some s.uid ∧
      (Assoc.find? "namespace" ms).elim none asString? = some s.ns ∧
      (Assoc.find? "name" ms).elim none asString? = some s.name ∧
      nullably asString? (Assoc.find? "phase" ms) = some s.phase ∧
      (Assoc.find? "containerStatuses" ms).elim (some []) (asList? ContainerSnapshot.ofJson?) =
        some s.containers ∧
      (Assoc.find? "deleted" ms).elim (some false) asBool? = some s.deleted := by
  have hreads : ofJson? (.obj ms) = _ := read_of_reads <|
    (reads_required h ..).bind fun _ => (reads_required h ..).bind fun _ =>
      (reads_required h ..).bind fun _ => (reads_optional h ..).bind fun _ =>
        (reads_defaulted h ..).bind fun _ => (reads_defaulted h ..).bind fun _ => reads_pure _
  rw [hreads]
  simp only [Option.bind_eq_some_iff, Option.some.injEq]
  constructor
  · rintro ⟨_, hu, _, hns, _, hn, _, hp, _, hc, _, hd, rfl⟩
    exact ⟨hu, hns, hn, hp, hc, hd⟩
  · rintro ⟨hu, hns, hn, hp, hc, hd⟩
    exact ⟨_, hu, _, hns, _, hn, _, hp, _, hc, _, hd, rfl⟩

theorem follows {s : Snapshot} (h : Assoc.Ascending ms) (hs : ofJson? (.obj ms) = some s) :
    Follows toJson ofJson? s (.obj ms) := by
  intro b
  obtain ⟨hu, hns, hn, hp, hc, hd⟩ := (ofJson?_obj_eq_some_iff h.distinct).1 hs
  obtain ⟨ns, heq, hdistinct, hfind⟩ :=
    exists_merge_diff_eq faithful (fun _ => rfl) s b (.obj ms) h
  have htext := follows_of_ne_obj faithful_str (fun _ _ h => by cases h)
  have hlist := follows_of_ne_obj ContainerSnapshot.faithful.list (fun _ _ h => by cases h)
  have hbool := follows_of_ne_obj faithful_bool (fun _ _ h => by cases h)
  rw [heq, ofJson?_obj_eq_some_iff hdistinct, hfind, hfind, hfind, hfind, hfind, hfind]
  simp only [toJson, Json.ofPresent_eq, Json.members, Json.find?_present_cons, String.reduceEq,
    ↓reduceIte, Json.present_nil, Assoc.find?_nil, Option.or_none]
  exact ⟨(htext _ _).present faithful_str hu _, (htext _ _).present faithful_str hns _,
    (htext _ _).present faithful_str hn _,
    nullably_mergedMember faithful_str hp (fun _ _ _ _ => htext _ _) _,
    (hlist _ _).present ContainerSnapshot.faithful.list hc _,
    (hbool _ _).present faithful_bool hd _⟩

end Pod.Snapshot

/-! ## Specifications -/

namespace Application.Spec

theorem ofJson?_obj_eq_some_iff (h : Assoc.Distinct ms) {s : Spec} :
    ofJson? (.obj ms) = some s ↔
      (Assoc.find? "applicationId" ms).elim none asString? = some s.applicationId ∧
      (Assoc.find? "applicationName" ms).elim (some "") asString? = some s.applicationName ∧
      nullably Heritage.ofJson? (Assoc.find? "heritage" ms) = some s.heritage ∧
      nullably Pod.Snapshot.ofJson? (Assoc.find? "driver" ms) = some s.driver ∧
      (Assoc.find? "executors" ms).elim (some []) (asList? Pod.Snapshot.ofJson?) =
        some s.executors ∧
      (Assoc.find? "sparkProperties" ms).elim (some .empty) (asTextMap? asString?) =
        some s.properties ∧
      (Assoc.find? "runStatistics" ms).elim (some .zero) Statistics.ofJson? = some s.statistics ∧
      nullably Ledger.ofJson? (Assoc.find? "stageMetrics" ms) = some s.stageLedger := by
  have hreads : ofJson? (.obj ms) = _ := read_of_reads <|
    (reads_required h ..).bind fun _ => (reads_defaulted h ..).bind fun _ =>
      (reads_optional h ..).bind fun _ => (reads_optional h ..).bind fun _ =>
        (reads_defaulted h ..).bind fun _ => (reads_defaulted h ..).bind fun _ =>
          (reads_defaulted h ..).bind fun _ => (reads_optional h ..).bind fun _ => reads_pure _
  rw [hreads]
  simp only [Option.bind_eq_some_iff, Option.some.injEq]
  constructor
  · rintro ⟨_, hi, _, hn, _, hh, _, hd, _, he, _, hp, _, hs, _, hl, rfl⟩
    exact ⟨hi, hn, hh, hd, he, hp, hs, hl⟩
  · rintro ⟨hi, hn, hh, hd, he, hp, hs, hl⟩
    exact ⟨_, hi, _, hn, _, hh, _, hd, _, he, _, hp, _, hs, _, hl, rfl⟩

/-- The properties, some of which may be stored. -/
private theorem follows_properties {properties : SortedMap String String} {stored : Option Json}
    (hstored : ∀ j, stored = some j → IsValue j)
    (h : stored.elim (some .empty) (asTextMap? asString?) = some properties) :
    Follows (.ofMap .str) (asTextMap? asString?) properties (stored.getD .null) := by
  cases stored with
  | none =>
    cases h
    exact follows_textMap faithful_str rfl (fun _ _ h => by cases h) .nil fun _ => rfl
  | some j =>
    cases j with
    | obj ns =>
      have hasc := (isValue_obj.1 (hstored _ rfl)).1
      refine follows_textMap faithful_str rfl (fun _ _ h => by cases h) hasc ?_
      have hname : ∀ s k : String, some s = some k ↔ s = id k := fun s k => Option.some_inj
      exact optionally_find?_of_asMap? hname hasc.distinct h
    | _ => cases h

private theorem find?_runStatistics (s : Spec) :
    Assoc.find? "runStatistics" s.toJson.members = some s.statistics.toJson := by
  simp [toJson, Json.ofPresent_eq, Json.members, Json.find?_present_cons]

/-- A changed specification reads as the one that it was changed to, unless no statistics were
stored and the new ones lack a total then. -/
theorem ofJson?_merge_diff {s : Spec} (h : IsValue (.obj ms))
    (hdriver : ∀ xs, Assoc.find? "driver" ms ≠ some (.arr xs))
    (hstatistics : ∀ xs, Assoc.find? "runStatistics" ms ≠ some (.arr xs))
    (hledger : ∀ xs, Assoc.find? "stageMetrics" ms ≠ some (.arr xs))
    (hactive : ∀ ls ns id xs, Assoc.find? "stageMetrics" ms = some (.obj ls) →
      Assoc.find? "activeStageMetrics" ls = some (.obj ns) → Assoc.find? id ns ≠ some (.arr xs))
    (hs : ofJson? (.obj ms) = some s) (b : Spec) :
    ofJson? ((diff s.toJson b.toJson).merge (.obj ms)) =
      if (Assoc.find? "runStatistics" ms).isSome ∨ b.statistics.Whole then some b else none := by
  have hasc := (isValue_obj.1 h).1
  obtain ⟨hi, hn, hh, hd, he, hp, hst, hl⟩ := (ofJson?_obj_eq_some_iff hasc.distinct).1 hs
  obtain ⟨ns, heq, hdistinct, hfind⟩ :=
    exists_merge_diff_eq faithful (fun _ => rfl) s b (.obj ms) hasc
  have htext := follows_of_ne_obj faithful_str (fun _ _ h => by cases h)
  have hlist := follows_of_ne_obj Pod.Snapshot.faithful.list (fun _ _ h => by cases h)
  have hheritage := follows_of_ne_obj Heritage.faithful (fun _ _ h => by cases h)
  have hdriver' : ∀ v x, Assoc.find? "driver" ms = some v → Pod.Snapshot.ofJson? v = some x →
      Follows Pod.Snapshot.toJson Pod.Snapshot.ofJson? x v := by
    intro v x hv hx
    obtain ⟨ds, rfl⟩ := exists_members_of_read hx fun xs hxs => hdriver xs (hxs ▸ hv)
    exact Pod.Snapshot.follows (isValue_obj.1 (h.member hv)).1 hx
  have hledger' : ∀ v x, Assoc.find? "stageMetrics" ms = some v → Ledger.ofJson? v = some x →
      Follows Ledger.toJson Ledger.ofJson? x v := by
    intro v x hv hx
    obtain ⟨ls, rfl⟩ := exists_members_of_read hx fun xs hxs => hledger xs (hxs ▸ hv)
    exact Ledger.follows (h.member hv) (fun ns id xs => hactive ls ns id xs hv) hx
  have hstatistics' := Statistics.ofJson?_mergedMember (fun _ => h.member) hstatistics hst
    b.statistics
  rw [heq]
  by_cases hreadable : (Assoc.find? "runStatistics" ms).isSome ∨ b.statistics.Whole
  · rw [if_pos hreadable] at hstatistics' ⊢
    rw [ofJson?_obj_eq_some_iff hdistinct, hfind, hfind, hfind, hfind, hfind, hfind, hfind, hfind]
    simp only [toJson, Json.ofPresent_eq, Json.members, Json.find?_present_cons, String.reduceEq,
      ↓reduceIte, Json.present_nil, Assoc.find?_nil, Option.or_none]
    exact ⟨(htext _ _).present faithful_str hi _, (htext _ _).present faithful_str hn _,
      nullably_mergedMember Heritage.faithful hh (fun _ _ _ _ => hheritage _ _) _,
      nullably_mergedMember Pod.Snapshot.faithful hd hdriver' _,
      (hlist _ _).present Pod.Snapshot.faithful.list he _,
      (follows_properties (fun _ => h.member) hp).present faithful_str.textMap hp _,
      hstatistics', nullably_mergedMember Ledger.faithful hl hledger' _⟩
  · rw [if_neg hreadable] at hstatistics' ⊢
    refine Option.eq_none_iff_forall_ne_some.2 fun c hc => ?_
    obtain ⟨-, -, -, -, -, -, hst', -⟩ := (ofJson?_obj_eq_some_iff hdistinct).1 hc
    rw [hfind, find?_runStatistics, find?_runStatistics] at hst'
    cases hstatistics'.symm.trans hst'

end Application.Spec

end SparkLedger

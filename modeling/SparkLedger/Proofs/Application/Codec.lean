import SparkLedger.Application.Basic
import SparkLedger.Proofs.Json.Record

/-!
# Records read back

The record of an application is plain, and reading it gives the application: one statement for
each kind of record, from the parts up.

* `Application.faithful`: the statement for the whole.
-/

namespace SparkLedger

open Assoc (find?_cons)
open Json (Faithful faithful_str plain_obj plain_of_keys plain_ofPresent ofPresent_eq present
  find?_present_cons lastMember?_eq lastMemberD?_eq asRanged? asBool? asString? asName? asMembers?)
open Json.Record (read_obj read_ofPresent run_required run_defaulted run_optional)

/-! ## Totals -/

namespace Application

theorem Attempt.faithful : Faithful Attempt.toJson Attempt.ofJson? := by
  have h (a : Attempt) : a.toJson.Plain := plain_of_keys (by simp +decide) (by simp)
  refine ⟨h, fun a => read_obj ?_⟩
  simp [run_required (h a), run_defaulted (h a), find?_cons, asRanged?, asBool?, asString?]

theorem Statistics.faithful : Faithful Statistics.toJson Statistics.ofJson? := by
  have h (s : Statistics) : s.toJson.Plain :=
    plain_of_keys (by simp +decide) (by simp [Attempt.faithful.plain])
  refine ⟨h, fun s => read_obj ?_⟩
  simp [run_required (h s), run_defaulted (h s), find?_cons, asRanged?,
    Attempt.faithful.list.read_write]

end Application

theorem Stage.Metrics.faithful : Faithful Stage.Metrics.toJson Stage.Metrics.ofJson? := by
  have h (m : Metrics) : m.toJson.Plain := plain_of_keys (by simp +decide) (by simp)
  refine ⟨h, fun m => read_obj ?_⟩
  simp [run_required (h m), find?_cons, asRanged?]

namespace Ledger

theorem ofKey?_key (id : Signed64) : ofKey? (key id) = some id := by
  simp [ofKey?, key]

theorem faithful : Faithful toJson ofJson? := by
  have hactive := Stage.Metrics.faithful.keyed ofKey?_key
  have h (l : Ledger) : l.toJson.Plain :=
    plain_of_keys (by simp +decide) (by simp [hactive.plain])
  refine ⟨h, fun l => read_obj ?_⟩
  simp [run_defaulted (h l), find?_cons, asRanged?, hactive.read_write l.active]

end Ledger

/-! ## Snapshots -/

namespace Pod

theorem ContainerSnapshot.faithful :
    Faithful ContainerSnapshot.toJson ContainerSnapshot.ofJson? := by
  have h (s : ContainerSnapshot) : s.toJson.Plain :=
    plain_ofPresent (by simp +decide) (by simp +contextual)
  refine ⟨h, fun s => read_ofPresent ?_⟩
  have hs : (Json.obj (present _)).Plain := h s
  simp [run_required hs, run_optional hs, find?_present_cons, asRanged?, asBool?, asString?,
    asName?]

theorem Snapshot.faithful : Faithful Snapshot.toJson Snapshot.ofJson? := by
  have hlist := ContainerSnapshot.faithful.list
  have h (s : Snapshot) : s.toJson.Plain :=
    plain_ofPresent (by simp +decide) (by simp +contextual [ContainerSnapshot.faithful.plain])
  refine ⟨h, fun s => read_ofPresent ?_⟩
  have hs : (Json.obj (present _)).Plain := h s
  simp [run_required hs, run_optional hs, run_defaulted hs, find?_present_cons, asBool?,
    asString?, hlist.read_write]

end Pod

/-! ## Metadata -/

namespace Object

theorem OwnerReference.faithful : Faithful OwnerReference.toJson OwnerReference.ofJson? := by
  have h (r : OwnerReference) : r.toJson.Plain :=
    plain_ofPresent (by simp +decide) (by simp [-Bool.exists_bool, -Bool.forall_bool])
  refine ⟨h, fun r => ?_⟩
  have hr : (Json.obj (present _)).Plain := h r
  rw [toJson, ofPresent_eq, ofJson?]
  simp [asMembers?, lastMember?_eq hr, lastMemberD?_eq hr, find?_present_cons, asString?]

theorem Metadata.faithful : Faithful Metadata.toJson Metadata.ofJson? := by
  have htime : Faithful (fun t : Timestamp => .str t.text) timestamp? :=
    ⟨fun t => Json.plain_str t.text, fun t => by simp [timestamp?, asString?]⟩
  have h (m : Metadata) : m.toJson.Plain :=
    plain_ofPresent (by simp +decide) (by
      simp +contextual [faithful_str.textMap.plain, OwnerReference.faithful.plain])
  refine ⟨h, fun m => ?_⟩
  have hm : (Json.obj (present _)).Plain := h m
  rw [toJson, ofPresent_eq, ofJson?]
  simp [asMembers?, lastMember?_eq hm, find?_present_cons, htime.optionally,
    faithful_str.list.optionally, faithful_str.textMap.optionally,
    OwnerReference.faithful.list.optionally]

end Object

/-! ## Applications -/

namespace Application

theorem Heritage.faithful : Faithful (fun h : Heritage => .str h.name) Heritage.ofJson? :=
  ⟨fun h => Json.plain_str h.name, fun h => by simp [ofJson?, asName?]⟩

theorem Spec.faithful : Faithful Spec.toJson Spec.ofJson? := by
  have h (s : Spec) : s.toJson.Plain :=
    plain_ofPresent (by simp +decide) (by
      simp +contextual [faithful_str.textMap.plain, Statistics.faithful.plain,
        Ledger.faithful.plain, Pod.Snapshot.faithful.plain])
  refine ⟨h, fun s => read_ofPresent ?_⟩
  have hs : (Json.obj (present _)).Plain := h s
  simp [run_required hs, run_optional hs, run_defaulted hs, find?_present_cons, asString?,
    Heritage.faithful.optionally, Pod.Snapshot.faithful.optionally, Ledger.faithful.optionally,
    Pod.Snapshot.faithful.list.read_write, faithful_str.textMap.read_write,
    Statistics.faithful.read_write]

theorem faithful : Faithful toJson ofJson? := by
  have h (a : Application) : a.toJson.Plain := by
    rw [toJson, plain_obj]
    simp +decide [Assoc.Ascending, Object.Metadata.faithful.plain, Spec.faithful.plain]
  refine ⟨h, fun a => read_obj ?_⟩
  simp [run_required (h a), find?_cons, Object.Metadata.faithful.read_write,
    Spec.faithful.read_write]

end Application

end SparkLedger

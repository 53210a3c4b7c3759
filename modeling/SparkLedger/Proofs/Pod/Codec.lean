import SparkLedger.Pod.Basic
import SparkLedger.Proofs.Application.Codec
import SparkLedger.Proofs.Object.Patch

/-!
# Pods read back

The object of a pod is plain, and reading it gives the pod: one statement for each kind of record,
from the parts up.

* `Pod.ofJson?_obj_eq_some_iff`: what is read of a pod, whoever wrote it.
* `Pod.faithful`: the statement for the whole.
-/

namespace SparkLedger.Pod

open Json (Faithful faithful_str plain_ofPresent plain_of_keys ofPresent_eq present
  find?_present_cons lastMember?_eq lastMemberD?_eq lastMemberD? lastMember?_of_distinct nullably
  nullably_eq_optionally asRanged? asBool? asString? asMembers?)

private theorem faithful_timestamp :
    Faithful (fun t : Timestamp => .str t.text) Object.Metadata.timestamp? :=
  ⟨fun t => Json.plain_str t.text, fun t => by simp [Object.Metadata.timestamp?, asString?]⟩

theorem Running.faithful : Faithful Running.toJson Running.ofJson? := by
  have h (r : Running) : r.toJson.Plain :=
    plain_ofPresent (by simp) (by simp)
  refine ⟨h, fun r => ?_⟩
  have hr : (Json.obj (present _)).Plain := h r
  rw [toJson, ofPresent_eq, ofJson?]
  simp [asMembers?, lastMember?_eq hr, find?_present_cons, faithful_timestamp.optionally]

theorem Waiting.faithful : Faithful Waiting.toJson Waiting.ofJson? := by
  have h (w : Waiting) : w.toJson.Plain :=
    plain_ofPresent (by simp +decide) (by simp +contextual)
  refine ⟨h, fun w => ?_⟩
  have hw : (Json.obj (present _)).Plain := h w
  rw [toJson, ofPresent_eq, ofJson?]
  simp [asMembers?, lastMember?_eq hw, find?_present_cons]

theorem Terminated.faithful : Faithful Terminated.toJson Terminated.ofJson? := by
  have h (t : Terminated) : t.toJson.Plain :=
    plain_ofPresent (by simp +decide) (by simp +contextual)
  refine ⟨h, fun t => ?_⟩
  have ht : (Json.obj (present _)).Plain := h t
  rw [toJson, ofPresent_eq, ofJson?]
  simp [asMembers?, lastMember?_eq ht, lastMemberD?_eq ht, find?_present_cons, asRanged?]

theorem ContainerState.faithful : Faithful ContainerState.toJson ContainerState.ofJson? := by
  have h (s : ContainerState) : s.toJson.Plain :=
    plain_ofPresent (by simp +decide)
      (by simp [Running.faithful.plain, Terminated.faithful.plain, Waiting.faithful.plain])
  refine ⟨h, fun s => ?_⟩
  have hs : (Json.obj (present _)).Plain := h s
  rw [toJson, ofPresent_eq, ofJson?]
  simp [asMembers?, lastMember?_eq hs, find?_present_cons, Running.faithful.optionally,
    Terminated.faithful.optionally, Waiting.faithful.optionally]

theorem ContainerStatus.faithful : Faithful ContainerStatus.toJson ContainerStatus.ofJson? := by
  have h (s : ContainerStatus) : s.toJson.Plain :=
    plain_ofPresent (by simp +decide) (by simp [ContainerState.faithful.plain])
  refine ⟨h, fun s => ?_⟩
  have hs : (Json.obj (present _)).Plain := h s
  rw [toJson, ofPresent_eq, ofJson?]
  simp [asMembers?, lastMember?_eq hs, lastMemberD?_eq hs, find?_present_cons, asString?, asBool?,
    asRanged?, ContainerState.faithful.optionally]

theorem Condition.faithful : Faithful Condition.toJson Condition.ofJson? := by
  have h (c : Condition) : c.toJson.Plain := plain_of_keys (by simp +decide) (by simp)
  refine ⟨h, fun c => ?_⟩
  have hc : (Json.obj [("status", .str c.status), ("type", .str c.type)]).Plain := h c
  rw [toJson, ofJson?]
  simp [asMembers?, lastMemberD?_eq hc, Assoc.find?_cons, asString?]

theorem Status.faithful : Faithful Status.toJson Status.ofJson? := by
  have h (s : Status) : s.toJson.Plain :=
    plain_ofPresent (by simp +decide)
      (by simp +contextual [Condition.faithful.plain, ContainerStatus.faithful.plain])
  refine ⟨h, fun s => ?_⟩
  have hs : (Json.obj (present _)).Plain := h s
  rw [toJson, ofPresent_eq, ofJson?]
  simp [asMembers?, lastMember?_eq hs, find?_present_cons, Condition.faithful.list.optionally,
    ContainerStatus.faithful.list.optionally]

/-! ## Pods -/

variable {ms : List (String × Json)}

theorem agrees_iff (h : Assoc.Distinct ms) {name value : String} :
    agrees name value ms = true ↔
      ∀ v, Assoc.find? name ms = some v → v.asString? = some value := by
  rw [agrees, List.all_eq_true]
  constructor
  · intro hall v hv
    simpa using hall _ (Assoc.mem_of_find? hv)
  · intro hfind m hm
    by_cases hname : m.1 = name
    · subst hname
      simpa using hfind m.2 (h.find?_eq_of_mem hm)
    · simp [hname]

theorem ofJson?_obj_eq_some_iff (h : Assoc.Distinct ms) {p : Pod} :
    ofJson? (.obj ms) = some p ↔
      ((∀ v, Assoc.find? "apiVersion" ms = some v → v.asString? = some "v1") ∧
        ∀ v, Assoc.find? "kind" ms = some v → v.asString? = some "Pod") ∧
      (nullably Object.Metadata.ofJson? (Assoc.find? "metadata" ms)).map (·.getD .empty) =
        some p.metadata ∧
      nullably Status.ofJson? (Assoc.find? "status" ms) = some p.status := by
  rw [← agrees_iff h, ← agrees_iff h, ofJson?]
  simp only [asMembers?, Option.bind_eq_bind, Option.bind_some, Bool.and_eq_true, lastMemberD?,
    lastMember?_of_distinct h]
  split
  · rename_i hagrees
    simp only [Option.bind_eq_some_iff, Option.pure_def, Option.some.injEq]
    constructor
    · rintro ⟨_, hm, _, hs, rfl⟩
      exact ⟨hagrees, hm, hs⟩
    · rintro ⟨-, hm, hs⟩
      exact ⟨_, hm, _, hs, rfl⟩
  · rename_i hagrees
    exact iff_of_false (by simp) fun hp => hagrees hp.1

theorem faithful : Faithful Pod.toJson Pod.ofJson? := by
  have h (p : Pod) : p.toJson.Plain :=
    plain_ofPresent (by simp +decide)
      (by simp [Object.Metadata.faithful.plain, Status.faithful.plain])
  refine ⟨h, fun p => ?_⟩
  have hp : (Json.obj (present _)).Plain := h p
  rw [toJson, ofPresent_eq, ofJson?_obj_eq_some_iff (Json.plain_obj.1 hp).1.distinct,
    nullably_eq_optionally hp, nullably_eq_optionally hp]
  refine ⟨⟨?_, ?_⟩, ?_, ?_⟩
  · simp [find?_present_cons, asString?]
  · simp [find?_present_cons, asString?]
  · simp [find?_present_cons, Json.optionally, Object.Metadata.faithful.read_write]
  · simp [find?_present_cons, Status.faithful.optionally]

instance : Object.LawfulResource Pod where
  faithful := Pod.faithful
  member_metadata p := by
    change (Json.ofPresent _).member? "metadata" = some p.metadata.toJson
    simp [ofPresent_eq, Json.member?, find?_present_cons]

end SparkLedger.Pod

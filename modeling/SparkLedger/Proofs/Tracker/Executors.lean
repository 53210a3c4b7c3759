import SparkLedger.Tracker.Executor

/-!
# Lists of executors

What becomes of a list of executors when one of them is recorded.

* `Spec.Put`: it is put in the place of the first one with its uid, or behind the others.
  `Spec.put_putExecutor`: so it is done.
* `Spec.map_uid_putExecutor`: an executor keeps its place.
* `Spec.find?_uid_putExecutor`: the executors with other uids stay as they are.
-/

namespace SparkLedger.Application.Spec

variable {uid : String} {pod : Pod} {ss : List Pod.Snapshot}

/-- A list of executors with the snapshot of a pod: in the place of the first one with its uid, or
behind the others. -/
inductive Put (uid : String) (pod : Pod) : List Pod.Snapshot → List Pod.Snapshot → Prop where
  | replaced (before : List Pod.Snapshot) {after : List Pod.Snapshot} {s : Pod.Snapshot}
      (hbefore : ∀ x ∈ before, x.uid ≠ uid) (hs : s.uid = uid) :
    Put uid pod (before ++ s :: after) (before ++ s.refreshed pod :: after)
  | added {ss : List Pod.Snapshot} (hnew : ∀ x ∈ ss, x.uid ≠ uid) :
    Put uid pod ss (ss ++ [.ofPod pod])

theorem put_putExecutor (uid : String) (pod : Pod) (ss : List Pod.Snapshot) :
    Put uid pod ss (putExecutor uid pod ss) := by
  induction ss with
  | nil => exact .added nofun
  | cons s ss ih =>
    rw [putExecutor]
    split
    · rename_i hs
      exact .replaced [] nofun hs
    · rename_i hs
      generalize putExecutor uid pod ss = es at ih
      cases ih with
      | @replaced before after s' hbefore hs' =>
        exact .replaced (s :: before) (List.forall_mem_cons.2 ⟨hs, hbefore⟩) hs'
      | added hnew => exact .added (List.forall_mem_cons.2 ⟨hs, hnew⟩)

theorem uid_ofPod (huid : pod.metadata.uid = some uid) : (Pod.Snapshot.ofPod pod).uid = uid := by
  simp [Pod.Snapshot.ofPod, huid]

theorem map_uid_putExecutor (huid : pod.metadata.uid = some uid) (ss : List Pod.Snapshot) :
    (putExecutor uid pod ss).map (·.uid) =
      if uid ∈ ss.map (·.uid) then ss.map (·.uid) else ss.map (·.uid) ++ [uid] := by
  have hput := put_putExecutor uid pod ss
  generalize putExecutor uid pod ss = es at hput
  cases hput with
  | @replaced before after s hbefore hs =>
    have hrefreshed : (s.refreshed pod).uid = uid := uid_ofPod huid
    simp [hs, hrefreshed]
  | added hnew =>
    have hnot : uid ∉ ss.map (·.uid) := fun hmem => by
      obtain ⟨x, hx, hxuid⟩ := List.mem_map.1 hmem
      exact hnew x hx hxuid
    rw [if_neg hnot, List.map_append, List.map_singleton, uid_ofPod huid]

/-- An executor is recorded after the first entry of its uid, and no other uid is looked at. -/
theorem find?_uid_putExecutor (huid : (Pod.Snapshot.ofPod pod).uid = uid) (u : String)
    (ss : List Pod.Snapshot) :
    (putExecutor uid pod ss).find? (·.uid = u) =
      if uid = u then some (.following (ss.find? (·.uid = uid)) pod)
      else ss.find? (·.uid = u) := by
  have hput := put_putExecutor uid pod ss
  generalize putExecutor uid pod ss = es at hput
  cases hput with
  | @replaced before after s hbefore hs =>
    have hrefreshed : (s.refreshed pod).uid = uid := huid
    have hnone : before.find? (·.uid = uid) = none := by simpa using hbefore
    split
    · rename_i hu
      subst hu
      simp [List.find?_append, hnone, hs, hrefreshed, Pod.Snapshot.following]
    · rename_i hu
      simp [List.find?_append, hs, hrefreshed, hu]
  | added hnew =>
    have hnone : ss.find? (·.uid = uid) = none := by simpa using hnew
    split
    · rename_i hu
      subst hu
      simp [List.find?_append, hnone, huid, Pod.Snapshot.following]
    · rename_i hu
      simp [List.find?_append, huid, hu]

end SparkLedger.Application.Spec

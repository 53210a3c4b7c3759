import Mathlib.Data.List.DropRight
import SparkLedger.Proofs.Tracker.Roster

/-!
# The snapshots of a record

What a record says of the pods of its application, whatever reconciles do beside each other. A write
that takes effect was made from the record as it is, so what it says of a pod is what its reconcile
has read, put after what was said before.

* `World.recorded`: the pods whose recording took effect, in the order of the writes.
* `World.Noted`: what a step does to the driver and to the executors. `noted_step`: every step
  does this.
* `snapshots_run`: the driver and the executors are what was recorded, one pod after the other.
* `snapshots_stay_deleted`: a snapshot that says deleted goes on to say so, and every other member
  of it is as the pod was read last.
-/

namespace SparkLedger.Tracker

open Application (Spec)
open Dialogue (Transcript Exchange)
open Pod (Role Snapshot)

/-! ## What a write says of the pods -/

section

variable {runningRequeue : Seconds} {ns name : String} {t : Transcript Tracking} {q : Question}
  {existing : Option Application} {new : Application}

/-- The uid under which a pod is recorded. -/
def uidOf (pod : Pod) : String := (Snapshot.ofPod pod).uid

/-- The snapshot of a driver after the recorded one, which counts only if it is of the same pod. -/
def driverAfter (previous : Option Snapshot) (pod : Pod) : Option Snapshot :=
  some (.following (previous.filter (·.uid = uidOf pod)) pod)

/-- The executors after one more is recorded. -/
def executorsAfter (previous : List Snapshot) (pod : Pod) : List Snapshot :=
  Spec.putExecutor (uidOf pod) pod previous

theorem Revised.isSome_read (h : Revised ns name t existing new) :
    (t.head?.bind podOf?).isSome := by
  cases h <;> rfl

/-- What the write of a reconcile says of the pods, by the role of the pod that it has read. -/
theorem Revised.snapshots (h : Revised ns name t existing new)
    (hasks : (reconcile runningRequeue ns name).run.Asks t q) (hq : q.isChange = true) :
    ∃ pod applicationId role, pod.member? = some (applicationId, role) ∧
      t.head?.bind podOf? = some pod ∧
      match role with
      | .driver => new.spec.driver = driverAfter (existing.bind (·.spec.driver)) pod ∧
          new.spec.executors = existing.elim [] (·.spec.executors)
      | .executor => new.spec.driver = existing.bind (·.spec.driver) ∧
          new.spec.executors = executorsAfter (existing.elim [] (·.spec.executors)) pod := by
  rcases asks_reconcile hasks with ⟨-, rfl⟩ | ⟨_, _, -, hpatch⟩ | ⟨pod, id, role, hmember, hrest⟩
  · cases hq
  · cases hpatch.isChange.symm.trans hq
  rcases hrest with ⟨-, rfl⟩ | ⟨existing', t', ht, hrest⟩
  · cases hq
  refine ⟨pod, id, role, hmember, by rw [ht]; rfl, ?_⟩
  -- The two roles are told apart by what was exchanged: only a driver's reconcile fetches.
  rcases hrest with ⟨rfl, htrack⟩ | ⟨rfl, ⟨_, _, -, -, rfl⟩ | ⟨_, _, _, _, rfl, -, -⟩⟩
  · obtain ⟨_, _, _, _, _, -, -, -, -, rfl, -⟩ := asks_trackExecutor htrack
    cases h with
    | driver => cases ht
    | executor huid =>
      cases ht
      refine ⟨rfl, ?_⟩
      rw [executorsAfter, uidOf, Spec.uid_ofPod huid]
      rfl
  · cases hq
  · cases h with
    | driver hstart hrecorded =>
      obtain ⟨hopening, -⟩ := List.append_inj ht rfl
      cases hopening
      refine ⟨?_, ?_⟩
      · rw [hrecorded.driver_eq, hstart]
        cases existing <;> rfl
      · rw [hrecorded.executors_eq, hstart]
        cases existing <;> rfl
    | executor => cases ht

end

/-! ## What is recorded -/

namespace World

/-- The latest snapshot of the driver, if there is one. -/
def driver? (w : World) : Option Snapshot := w.application?.bind (·.spec.driver)

/-- The snapshots of the executors, none before the record is there. -/
def executors (w : World) : List Snapshot := w.application?.elim [] (·.spec.executors)

/-- The pod that a reconcile has read. -/
def read (w : World) (i : Nat) : Option Pod := (w.said i).head?.bind podOf?

/-- The pods in a role whose reconciles have changed the record, in the order of the changes. -/
def recorded (w : World) (role : Role) : List Pod :=
  w.writes.filterMap fun write =>
    (w.read write.1).filter fun pod => pod.member?.map (·.2) = some role

/-- Who has changed the record has read a pod before. -/
def Spoken (w : World) : Prop := ∀ write ∈ w.writes, (w.read write.1).isSome

variable {S : Setup} {w w' : World}

theorem read_tell {i k : Nat} {e : Exchange Tracking} (h : (w.read k).isSome) :
    (w.tell i e).read k = w.read k := by
  by_cases hk : k = i
  · subst hk
    rw [read] at h
    rw [read, read, said_tell_self]
    cases hsaid : w.said k with
    | nil => rw [hsaid] at h; cases h
    | cons e' t => rfl
  · rw [read, read, said_tell_of_ne hk]

theorem Spoken.tell (h : w.Spoken) (i : Nat) (e : Exchange Tracking) : (w.tell i e).Spoken := by
  intro write hwrite
  rw [read_tell (h write hwrite)]
  exact h write hwrite

theorem recorded_tell (h : w.Spoken) (i : Nat) (e : Exchange Tracking) (role : Role) :
    (w.tell i e).recorded role = w.recorded role := by
  refine List.filterMap_congr fun write hwrite => ?_
  rw [read_tell (h write hwrite)]

/-- What a step does to the driver and to the executors, and which pod it records thereby. -/
inductive Noted (w w' : World) : Prop where
  | kept (hdriver : w'.driver? = w.driver?) (hexecutors : w'.executors = w.executors)
      (hrecorded : ∀ role, w'.recorded role = w.recorded role) : Noted w w'
  | driver {pod : Pod} (hdriver : w'.driver? = driverAfter w.driver? pod)
      (hexecutors : w'.executors = w.executors)
      (hdrivers : w'.recorded .driver = w.recorded .driver ++ [pod])
      (hothers : w'.recorded .executor = w.recorded .executor) : Noted w w'
  | executor {pod : Pod} (hdriver : w'.driver? = w.driver?)
      (hexecutors : w'.executors = executorsAfter w.executors pod)
      (hdrivers : w'.recorded .driver = w.recorded .driver)
      (hothers : w'.recorded .executor = w.recorded .executor ++ [pod]) : Noted w w'

theorem spoken_step (h : w.Spoken) (hstep : S.Step w w') : w'.Spoken := by
  cases hstep with
  | heard => exact h.tell _ _
  | fetched => exact h.tell _ _
  | @wrote i q a slot hasks hwrite =>
    intro write hmem
    rcases List.mem_append.1 hmem with hmem | hmem
    · exact h.tell i ⟨q, a⟩ write hmem
    · cases List.mem_singleton.1 hmem
      obtain ⟨existing, new, hrevised, -⟩ := revised_of_asks hasks hwrite.isChange
      have hread : (w.read i).isSome := hrevised.isSome_read
      exact (congrArg Option.isSome (read_tell hread)).trans hread

theorem recorded_write {i : Nat} {pod : Pod} {role : Role} (h : w.Spoken)
    (hpod : w.read i = some pod) (hrole : pod.member?.map (·.2) = some role) (q : Question)
    (a : q.Answer) (slot : Slot) (role' : Role) :
    (w.write i q a slot).recorded role' =
      w.recorded role' ++ if role' = role then [pod] else [] := by
  have hread : (w.tell i ⟨q, a⟩).read i = some pod := by
    rw [read_tell (by rw [hpod]; rfl), hpod]
  refine List.filterMap_append.trans ?_
  congr 1
  · exact recorded_tell h i ⟨q, a⟩ role'
  · change [(i, q)].filterMap (fun write => ((w.tell i ⟨q, a⟩).read write.1).filter
      fun pod => pod.member?.map (·.2) = some role') = _
    rw [List.filterMap_cons, hread, Option.filter_some, hrole]
    by_cases hsame : role' = role
    · simp [hsame]
    · simp [hsame, Ne.symm hsame]

/-- A step keeps the snapshots, or records one pod. -/
theorem Coherent.noted_step (h : w.Coherent S.record) (hspoken : w.Spoken)
    (hstep : S.Step w w') : w.Noted w' := by
  cases hstep with
  | heard => exact .kept rfl rfl fun role => recorded_tell hspoken _ _ role
  | fetched => exact .kept rfl rfl fun role => recorded_tell hspoken _ _ role
  | @wrote i q a slot hasks hwrite =>
    have hq := hwrite.isChange
    obtain ⟨new, current, version, hrevised, hspec, -, -, -, rfl⟩ := h.revised hasks hwrite
    obtain ⟨pod, id, role, hmember, hread, hsnapshots⟩ := hrevised.snapshots hasks hq
    have hrole : pod.member?.map (·.2) = some role := by rw [hmember]; rfl
    have hrecorded := recorded_write hspoken hread hrole q a
      ⟨some current.toJson, version :: w.slot.given⟩
    have hcurrent := application?_write w i q a current (version :: w.slot.given)
    cases role with
    | driver =>
      refine .driver ?_ ?_ (hrecorded .driver) ((hrecorded .executor).trans (List.append_nil _))
      · rw [driver?, hcurrent, Option.bind_some, hspec, hsnapshots.1, driver?]
      · rw [executors, hcurrent, Option.elim_some, hspec, hsnapshots.2, executors]
    | executor =>
      refine .executor ?_ ?_ ((hrecorded .driver).trans (List.append_nil _)) (hrecorded .executor)
      · rw [driver?, hcurrent, Option.bind_some, hspec, hsnapshots.1, driver?]
      · rw [executors, hcurrent, Option.elim_some, hspec, hsnapshots.2, executors]

end World

/-! ## One pod after the other -/

section

variable {pods : List Pod} {pod : Pod} {uid : String}

theorem find?_executorsAfter (ss : List Snapshot) (pod : Pod) (uid : String) :
    (executorsAfter ss pod).find? (·.uid = uid) =
      if uidOf pod = uid then some (.following (ss.find? (·.uid = uid)) pod)
      else ss.find? (·.uid = uid) := by
  have huid : (Snapshot.ofPod pod).uid = uidOf pod := rfl
  have hput := Spec.find?_uid_putExecutor huid uid ss
  rw [executorsAfter, hput]
  split
  · rename_i hsame
    rw [hsame]
  · rfl

/-- The entry of an executor after some were recorded depends on those with its uid only. -/
theorem find?_foldl_executorsAfter (pods : List Pod) (ss : List Snapshot) (uid : String) :
    (pods.foldl executorsAfter ss).find? (·.uid = uid) =
      (pods.filter (uidOf · = uid)).foldl (fun s pod => some (.following s pod))
        (ss.find? (·.uid = uid)) := by
  induction pods generalizing ss with
  | nil => rfl
  | cons pod pods ih =>
    rw [List.foldl_cons, ih, find?_executorsAfter, List.filter_cons]
    by_cases huid : uidOf pod = uid <;> simp [huid]

/-- Once deleted, a snapshot stays so. -/
theorem following_eq (s : Option Snapshot) (pod : Pod) :
    Snapshot.following s pod =
      { Snapshot.ofPod pod with deleted := pod.isDeleting || s.any (·.deleted) } := by
  cases s with
  | none => simp [Snapshot.following, Snapshot.ofPod]
  | some s => rfl

theorem any_foldl_following (pods : List Pod) (s : Option Snapshot) :
    (pods.foldl (fun s pod => some (.following s pod)) s).any (·.deleted) =
      (pods.any (·.isDeleting) || s.any (·.deleted)) := by
  induction pods generalizing s with
  | nil => rfl
  | cons pod pods ih =>
    rw [List.foldl_cons, ih, Option.any_some, following_eq, List.any_cons, Bool.or_left_comm,
      Bool.or_assoc]

/-- A snapshot after one or more of the same pod is the last one, deleted if any of them says so or
the one before does. -/
theorem foldl_following (hlast : pods.getLast? = some pod) (s : Option Snapshot) :
    pods.foldl (fun s pod => some (.following s pod)) s =
      some { Snapshot.ofPod pod with
        deleted := pods.any (·.isDeleting) || s.any (·.deleted) } := by
  obtain ⟨pods, rfl⟩ := List.getLast?_eq_some_iff.1 hlast
  rw [List.foldl_append, List.foldl_cons, List.foldl_nil, following_eq, any_foldl_following]
  simp [Bool.or_left_comm, Bool.or_assoc]

/-- The last pods of a list, as far back as they have this uid. -/
def sinceUid (uid : String) (pods : List Pod) : List Pod := pods.rtakeWhile (uidOf · = uid)

theorem sinceUid_concat (uid : String) (pods : List Pod) (pod : Pod) :
    sinceUid uid (pods ++ [pod]) = if uidOf pod = uid then sinceUid uid pods ++ [pod] else [] := by
  rw [sinceUid, List.rtakeWhile_concat]
  simp only [decide_eq_true_eq]
  rfl

/-- A driver's snapshot is deleted if the one before is of the same pod and says so. -/
theorem driverAfter_eq (s : Option Snapshot) (pod : Pod) :
    driverAfter s pod = some { Snapshot.ofPod pod with
      deleted := pod.isDeleting || s.any fun s => s.uid = uidOf pod && s.deleted } := by
  rw [driverAfter, following_eq]
  cases s with
  | none => rfl
  | some s => by_cases huid : s.uid = uidOf pod <;> simp [Option.filter_some, huid]

theorem any_foldl_driverAfter (pods : List Pod) (s : Option Snapshot) (uid : String) :
    (pods.foldl driverAfter s).any (fun s => s.uid = uid && s.deleted) =
      ((sinceUid uid pods).any (·.isDeleting) ||
        (sinceUid uid pods = pods && s.any fun s => s.uid = uid && s.deleted)) := by
  induction pods using List.reverseRecOn generalizing uid with
  | nil => simp [sinceUid]
  | append_singleton pods pod ih =>
    rw [List.foldl_append, List.foldl_cons, List.foldl_nil, driverAfter_eq, Option.any_some, ih,
      sinceUid_concat]
    change (uidOf pod = uid && _) = _
    by_cases huid : uidOf pod = uid
    · subst huid
      simp [Bool.or_left_comm, Bool.or_assoc]
    · simp [huid]

/-- The snapshot of a driver after one or more were recorded is the last one, deleted if any since
the uid has changed says so, or if the one before does and it has not changed at all. -/
theorem foldl_driverAfter (hlast : pods.getLast? = some pod) (s : Option Snapshot) :
    pods.foldl driverAfter s =
      some { Snapshot.ofPod pod with
        deleted := (sinceUid (uidOf pod) pods).any (·.isDeleting) ||
          (sinceUid (uidOf pod) pods = pods &&
            s.any fun s => s.uid = uidOf pod && s.deleted) } := by
  obtain ⟨pods, rfl⟩ := List.getLast?_eq_some_iff.1 hlast
  rw [List.foldl_append, List.foldl_cons, List.foldl_nil, driverAfter_eq, any_foldl_driverAfter,
    sinceUid_concat, if_pos rfl]
  simp [Bool.or_left_comm, Bool.or_assoc]

end

/-! ## Runs -/

namespace World

variable {w w' : World}

/-- A deleted executor stays so. -/
theorem Noted.deleted_executor (h : w.Noted w') {uid : String} {s : Snapshot}
    (hs : w.executors.find? (·.uid = uid) = some s) (hdeleted : s.deleted = true) :
    ∃ s', w'.executors.find? (·.uid = uid) = some s' ∧ s'.deleted = true := by
  cases h with
  | kept _ hexecutors => exact ⟨s, hexecutors ▸ hs, hdeleted⟩
  | driver _ hexecutors => exact ⟨s, hexecutors ▸ hs, hdeleted⟩
  | @executor pod _ hexecutors =>
    rw [hexecutors, find?_executorsAfter, hs]
    split
    · refine ⟨_, rfl, ?_⟩
      rw [following_eq, Option.any_some, hdeleted, Bool.or_true]
    · exact ⟨s, rfl, hdeleted⟩

/-- A deleted driver stays so, unless another pod takes its place. -/
theorem Noted.deleted_driver (h : w.Noted w') {s : Snapshot} (hs : w.driver? = some s)
    (hdeleted : s.deleted = true) (hsame : w'.driver?.map (·.uid) = w.driver?.map (·.uid)) :
    ∃ s', w'.driver? = some s' ∧ s'.uid = s.uid ∧ s'.deleted = true := by
  cases h with
  | kept hdriver => exact ⟨s, hdriver.trans hs, rfl, hdeleted⟩
  | executor hdriver => exact ⟨s, hdriver.trans hs, rfl, hdeleted⟩
  | @driver pod hdriver =>
    rw [driverAfter_eq] at hdriver
    rw [hdriver, hs] at hsame
    have huid : s.uid = uidOf pod := (Option.some.inj hsame).symm
    refine ⟨_, hdriver, huid.symm, ?_⟩
    simp [hs, huid, hdeleted]

end World

open Setup (start)
open World (Noted)

variable {S : Setup} {application : Option Application} {w w' : World}

/-- A step that leaves the driver the pod it is. -/
def Setup.KeepsDriver (S : Setup) (w w' : World) : Prop :=
  S.Step w w' ∧ w'.driver?.map (·.uid) = w.driver?.map (·.uid)

/-- The driver and the executors are what was recorded, one pod after the other. -/
theorem snapshots_run
    (happlication : ∀ a, application = some a → a.metadata.identity? = some S.record)
    (hrun : S.Run (start application) w) :
    w.Spoken ∧ w.driver? = (w.recorded .driver).foldl driverAfter (start application).driver? ∧
      w.executors = (w.recorded .executor).foldl executorsAfter (start application).executors := by
  induction hrun with
  | refl =>
    have hnone : ∀ role, (start application).recorded role = [] := fun _ => rfl
    rw [hnone, hnone]
    exact ⟨fun _ hwrite => absurd hwrite List.not_mem_nil, rfl, rfl⟩
  | tail hbefore hstep ih =>
    obtain ⟨hspoken, hdriver, hexecutors⟩ := ih
    refine ⟨World.spoken_step hspoken hstep, ?_⟩
    cases (coherent_run happlication hbefore).noted_step hspoken hstep with
    | kept hdriver' hexecutors' hrecorded =>
      rw [hdriver', hexecutors', hrecorded, hrecorded]
      exact ⟨hdriver, hexecutors⟩
    | driver hdriver' hexecutors' hdrivers hothers =>
      rw [hdriver', hexecutors', hdrivers, hothers, List.foldl_append, ← hdriver]
      exact ⟨rfl, hexecutors⟩
    | executor hdriver' hexecutors' hdrivers hothers =>
      rw [hdriver', hexecutors', hdrivers, hothers, List.foldl_append, ← hexecutors]
      exact ⟨hdriver, rfl⟩

theorem noted_of_step
    (happlication : ∀ a, application = some a → a.metadata.identity? = some S.record)
    (hrun : S.Run (start application) w) (hstep : S.Step w w') : w.Noted w' :=
  (coherent_run happlication hrun).noted_step (snapshots_run happlication hrun).1 hstep

theorem deleted_executor_run
    (happlication : ∀ a, application = some a → a.metadata.identity? = some S.record)
    (hrun : S.Run (start application) w) (hrun' : S.Run w w') {uid : String} {s : Snapshot}
    (hs : w.executors.find? (·.uid = uid) = some s) (hdeleted : s.deleted = true) :
    ∃ s', w'.executors.find? (·.uid = uid) = some s' ∧ s'.deleted = true := by
  induction hrun' with
  | refl => exact ⟨s, hs, hdeleted⟩
  | tail hbefore hstep ih =>
    obtain ⟨s', hs', hdeleted'⟩ := ih
    exact (noted_of_step happlication (hrun.trans hbefore) hstep).deleted_executor hs' hdeleted'

theorem deleted_driver_run
    (happlication : ∀ a, application = some a → a.metadata.identity? = some S.record)
    (hrun : S.Run (start application) w) (hkept : Relation.ReflTransGen S.KeepsDriver w w')
    {s : Snapshot} (hs : w.driver? = some s) (hdeleted : s.deleted = true) :
    S.Run w w' ∧ ∃ s', w'.driver? = some s' ∧ s'.uid = s.uid ∧ s'.deleted = true := by
  induction hkept with
  | refl => exact ⟨.refl, s, hs, rfl, hdeleted⟩
  | tail _ hstep ih =>
    obtain ⟨hbefore, s', hs', huid, hdeleted'⟩ := ih
    have hnoted := noted_of_step happlication (hrun.trans hbefore) hstep.1
    obtain ⟨s'', hs'', huid', hdeleted''⟩ := hnoted.deleted_driver hs' hdeleted' hstep.2
    exact ⟨hbefore.tail hstep.1, s'', hs'', huid'.trans huid, hdeleted''⟩

/-- With distinct uids the first entry of a uid is the only one. -/
theorem find?_uid_eq_some_iff {ss : List Snapshot} (hnodup : (ss.map (·.uid)).Nodup)
    {uid : String} {s : Snapshot} :
    ss.find? (·.uid = uid) = some s ↔ s ∈ ss ∧ s.uid = uid := by
  constructor
  · intro h
    exact ⟨List.mem_of_find?_eq_some h, by simpa using List.find?_some h⟩
  · rintro ⟨hs, rfl⟩
    cases h : ss.find? (·.uid = s.uid) with
    | none =>
      have hne := List.find?_eq_none.1 h s hs
      simp at hne
    | some s' =>
      have huid : s'.uid = s.uid := by simpa using List.find?_some h
      rw [List.inj_on_of_nodup_map hnodup (List.mem_of_find?_eq_some h) hs huid]

/-- A snapshot that says deleted goes on to say so, for a driver as long as it is the same pod. What
is recorded of a pod is the pod as the reconcile has read it whose write took effect last, and
deleted if any of those before has seen it so, or if the record said so before them. -/
theorem snapshots_stay_deleted
    (happlication : ∀ a, application = some a →
      a.metadata.identity? = some S.record ∧ a.executorIds.Nodup)
    (hrun : S.Run (start application) w) :
    (∀ w', S.Run w w' → ∀ s ∈ w.executors, s.deleted = true →
      (∃ s' ∈ w'.executors, s'.uid = s.uid) ∧
        ∀ s' ∈ w'.executors, s'.uid = s.uid → s'.deleted = true) ∧
    (∀ w', Relation.ReflTransGen S.KeepsDriver w w' → ∀ s, w.driver? = some s →
      s.deleted = true → ∃ s', w'.driver? = some s' ∧ s'.uid = s.uid ∧ s'.deleted = true) ∧
    (∀ uid pod, ((w.recorded .executor).filter (uidOf · = uid)).getLast? = some pod →
      ∀ s, s ∈ w.executors ∧ s.uid = uid ↔ s = { Snapshot.ofPod pod with
        deleted := ((w.recorded .executor).filter (uidOf · = uid)).any (·.isDeleting) ||
          ((start application).executors.find? (·.uid = uid)).any (·.deleted) }) ∧
    ∀ pod, (w.recorded .driver).getLast? = some pod →
      w.driver? = some { Snapshot.ofPod pod with
        deleted := (sinceUid (uidOf pod) (w.recorded .driver)).any (·.isDeleting) ||
          (sinceUid (uidOf pod) (w.recorded .driver) = w.recorded .driver &&
            (start application).driver?.any fun s => s.uid = uidOf pod && s.deleted) } := by
  have hidentity := fun a ha => (happlication a ha).1
  have hnodup {w : World} (hrun : S.Run (start application) w) :
      (w.executors.map (·.uid)).Nodup := by
    have h := nodup_run happlication hrun
    rw [World.executorIds] at h
    rw [World.executors]
    cases hw : w.application? with
    | none => exact List.nodup_nil
    | some a =>
      rw [hw] at h
      exact h
  obtain ⟨-, hdriver, hexecutors⟩ := snapshots_run hidentity hrun
  refine ⟨fun w' hrun' s hs hdeleted => ?_, fun w' hkept s hs hdeleted => ?_,
    fun uid pod hlast s => ?_, fun pod hlast => ?_⟩
  · have hfind := (find?_uid_eq_some_iff (hnodup hrun)).2 ⟨hs, rfl⟩
    obtain ⟨s', hs', hdeleted'⟩ := deleted_executor_run hidentity hrun hrun' hfind hdeleted
    refine ⟨⟨s', (find?_uid_eq_some_iff (hnodup (hrun.trans hrun'))).1 hs'⟩, ?_⟩
    intro s'' hmem huid
    have hfind' := (find?_uid_eq_some_iff (hnodup (hrun.trans hrun'))).2 ⟨hmem, huid⟩
    cases hs'.symm.trans hfind'
    exact hdeleted'
  · exact (deleted_driver_run hidentity hrun hkept hs hdeleted).2
  · rw [← find?_uid_eq_some_iff (hnodup hrun), hexecutors, find?_foldl_executorsAfter,
      foldl_following hlast, Option.some.injEq, eq_comm]
  · rw [hdriver, foldl_driverAfter hlast]

/-! An executor was seen deleted. A reconcile that reads it as it was before does not undo that. -/

section

open Setup (pair pairPod pairRead)

/-- The record with an executor that is deleted. -/
def deletedRecord : Application :=
  { Application.template "spark" "app" with
    metadata.resourceVersion := some "1"
    spec.executors := [{ Snapshot.ofPod (pairPod "executor") with
      phase := some "Failed"
      deleted := true }] }

theorem snapshots_stay_deleted_reread :
    ∃ w, pair.Run (start (some deletedRecord)) w ∧ (pairPod "executor").isDeleting = false ∧
      ∀ s, s ∈ w.executors ∧ s.uid = "executor-uid" ↔
        s = { Snapshot.ofPod (pairPod "executor") with deleted := true } := by
  let w₁ := (start (some deletedRecord)).tell 1 (pairRead "executor")
  let w₂ := w₁.tell 1 (readOf "spark" "app" deletedRecord)
  have h₁ : pair.Step (start (some deletedRecord)) w₁ :=
    .heard (.inl ⟨rfl, rfl⟩) (.elsewhere nofun trivial)
  have h₂ : pair.Step w₁ w₂ := .heard (.inr ⟨_, _, rfl, .inl ⟨rfl, rfl⟩⟩) (.read rfl)
  let p := (Object.conditionalPatch? deletedRecord
    (deletedRecord.withExecutor "executor-uid" (pairPod "executor"))).get rfl
  have hp : Object.conditionalPatch? deletedRecord
      (deletedRecord.withExecutor "executor-uid" (pairPod "executor")) = some p := rfl
  have hasks : (pair.work 1).Asks (w₂.said 1) (.patchApplication "spark" "app" p) :=
    .inr ⟨_, _, rfl, .inr ⟨_, _, rfl, .inl ⟨rfl, rfl⟩⟩⟩
  -- The answer to the write is lost, but the write is not.
  have hwrite : w₂.slot.Writes pair.record (.patchApplication "spark" "app" p)
      (.error .notText : Except Kube.Error Application)
      (w₂.slot.put "2" (p.merge deletedRecord.toJson)) :=
    .patch rfl rfl (Object.metadataText?_conditionalPatch? hp rfl) (by decide) (.inr ⟨_, rfl⟩)
  have hrun : pair.Run (start (some deletedRecord)) _ :=
    .tail (.tail (.single h₁) h₂) (.wrote hasks hwrite)
  have hstart : ∀ a, some deletedRecord = some a →
      a.metadata.identity? = some pair.record ∧ a.executorIds.Nodup := by
    intro a ha
    cases ha
    exact ⟨rfl, List.nodup_singleton _⟩
  obtain ⟨-, -, hentries, -⟩ := snapshots_stay_deleted hstart hrun
  exact ⟨_, hrun, rfl, hentries "executor-uid" (pairPod "executor") rfl⟩

end

end SparkLedger.Tracker

import SparkLedger.Proofs.Tracker.Course

/-!
# The stages of a plan

A plan is carried out by at most three writes: of the record, of the pod's owner, and of its
finalizers. Whatever fails, what is stored afterwards is what was there before, or what one of these
writes has left, with those before it.

* `Course.Reached`: what is stored once the record is written and the pod is changed so far.
* `Course.Readable`: the record can be read once it is written.
* `Course.ensures_carriedOut`: the stages of a plan.
* `Course.exists_run_carriedOut`: with a server that fails no request, the last stage is reached.
-/

namespace SparkLedger.Tracker

open Dialogue (Transcript Exchange Ending)
open Object (HasMetadata Metadata conditionalPatch? unversioned)
open Cluster (withMetadata)

variable {S : Server} {s : Site} {runningRequeue : Seconds} {ns name : String} {α β : Type}

/-! ## Changes of the pod -/

namespace Server

/-- A request whose result is put to use. -/
theorem run_map_attempt {x : Work α} {cause : StoreError → Error} {e : Exchange Tracking}
    {o : Objects} {r : Except Error α} (h : S.run x s = S.attempt cause e o r s) (f : α → β) :
    S.run (do return f (← x)) s = S.attempt cause e o (r.map f) s := by
  rw [run_bind, h]
  unfold attempt
  cases S.fate s.said.length with
  | served => cases r <;> rfl
  | refused error => rfl
  | lost error => rfl

theorem Changes.map {x : Work α} {result : Pod → α} {place : String × String} {pod pod' : Pod}
    (h : S.Changes x result s place pod pod') (f : α → β) :
    S.Changes (do return f (← x)) (fun pod => f (result pod)) s place pod pod' := by
  rcases h with ⟨hsame, hrun⟩ | ⟨cause, p, o, version, hp, hrecords, hturn, hrun⟩
  · exact .inl ⟨hsame, run_bind_of_ok hrun⟩
  · exact .inr ⟨cause, p, o, version, hp, hrecords, hturn, run_map_attempt hrun f⟩

end Server

namespace Plan

variable {place : String × String} {j : Json} {pod : Pod}

/-- The owner of a pod does not depend on the version of the record. -/
theorem owner?_under (plan : Plan) (stored : Option Application) (version : Option String) :
    plan.owner? (stored.map (·.under version)) = plan.owner? stored := by
  cases stored <;> rfl

theorem changes_own (h : s.objects.HasPod place j pod) (reference : Option Object.OwnerReference) :
    S.Changes (own pod reference) id s place pod (pod.owned reference) := by
  cases reference with
  | none => exact .inl ⟨rfl, rfl⟩
  | some r => exact Server.changes_patchPod h (Pod.change_owned pod (some r)) .ownerReference

/-- The pod, let go if it is time. -/
def settled (plan : Plan) (pod : Pod) : Pod :=
  if pod.isDeleting && !plan.outcome.requestsRequeue then pod.letGo else pod

theorem settled_under (plan : Plan) (pod : Pod) (version : Option String) :
    plan.settled (pod.under version) = (plan.settled pod).under version := by
  change (if pod.isDeleting && !plan.outcome.requestsRequeue then (pod.under version).letGo
    else pod.under version) = _
  rw [Pod.letGo_under, settled]
  split <;> rfl

theorem settled_owned (plan : Plan) (pod : Pod) (reference : Option Object.OwnerReference) :
    plan.settled (pod.owned reference) = (plan.settled pod).owned reference := by
  cases reference with
  | none => rfl
  | some r =>
    change (if pod.isDeleting && !plan.outcome.requestsRequeue then
      (if pod.isTracked then (pod.owned (some r)).released else pod.owned (some r))
      else pod.owned (some r)) = _
    unfold settled Pod.letGo
    split
    · split <;> rfl
    · rfl

theorem find?_settled_of_ne (plan : Plan) (pod : Pod) {k : String} (hk : k ≠ "finalizers") :
    Assoc.find? k (plan.settled pod).metadata.toJson.members =
      Assoc.find? k pod.metadata.toJson.members := by
  unfold settled
  split
  · exact pod.find?_letGo_of_ne hk
  · rfl

theorem changes_settle (h : s.objects.HasPod place j pod) (plan : Plan) :
    S.Changes (plan.settle pod) (fun _ => ()) s place pod (plan.settled pod) := by
  unfold settle settled
  split
  · unfold release Pod.letGo
    split
    · have hchange : Pod.Change pod pod.released := .of_finalizers pod _
      exact (Server.changes_patchPod h hchange .finalizer).map fun _ => ()
    · exact .inl ⟨rfl, rfl⟩
  · exact .inl ⟨rfl, rfl⟩

end Plan

/-! ## Stages -/

namespace Course

section

variable {info : Pod → String → Option Ledger → Option (Except Info.Error Info)} {o o₁ o₂ : Objects}
  (C : Course info runningRequeue o ns name)

/-- The record once it is written. -/
def stored (uid : String) : Option Application := C.plan.record.map (·.assigned C.existing uid)

/-- The pod once it has its owner. -/
def ownedPod (uid : String) : Pod := C.pod.owned (C.plan.owner? (C.stored uid))

/-- The pod at the end. -/
def finalPod (uid : String) : Pod := C.plan.settled (C.ownedPod uid)

/-- The document of the record, its version aside. -/
def revision (a : Application) (uid : String) : Json :=
  o.revision (ns, C.applicationId) C.existing a uid

/-- A record that is written can be read. -/
def Readable : Prop :=
  ∀ a, C.plan.record = some a → C.existing ≠ some a → ∀ uid version,
    Application.ofJson? (withMetadata "resourceVersion" version (C.revision a uid)) =
      some ((a.assigned C.existing uid).under (some version))

/-- What is stored once the record is written and the pod is changed to another. -/
structure Reached (uid : String) (pod' : Pod) (o' : Objects) : Prop where
  pods : o.Turn (ns, name) C.pod pod' o'
  record : match C.plan.record with
    | none => o'.records (ns, C.applicationId) = o.records (ns, C.applicationId)
    | some a => ∃ j version, o'.records (ns, C.applicationId) = some j ∧
      (∃ ms metadata, HasMetadata j ms metadata) ∧ unversioned j = unversioned (C.revision a uid) ∧
      Application.ofJson? j = some ((a.assigned C.existing uid).under version)
  others : ∀ q, q ≠ (ns, C.applicationId) → o'.records q = o.records q

/-- The pods of the stages. -/
inductive IsStage (uid : String) : Pod → Prop where
  | recorded : IsStage uid C.pod
  | owned : IsStage uid (C.ownedPod uid)
  | final : IsStage uid (C.finalPod uid)

/-- What may be stored when a plan has come to an end. -/
def Progress (o' : Objects) : Prop :=
  o' = o ∨ ∃ uid pod' version, C.IsStage uid pod' ∧ C.Reached uid (pod'.under version) o'

variable {C} {uid : String} {pod₁ pod₂ : Pod}

/-- Nothing that is changed on the way to the end is changed back. -/
theorem IsStage.kept (hpod₁ : C.IsStage uid pod₁) {version version' : Option String} {k : String}
    (hk : k ≠ "resourceVersion")
    (hsame : Assoc.find? k ((C.finalPod uid).under version').metadata.toJson.members =
      Assoc.find? k C.pod.metadata.toJson.members) :
    Assoc.find? k (pod₁.under version).metadata.toJson.members =
      Assoc.find? k C.pod.metadata.toJson.members := by
  rw [Pod.find?_under _ _ hk] at hsame ⊢
  cases hpod₁ with
  | recorded => rfl
  | owned =>
    by_cases hfinalizers : k = "finalizers"
    · exact Pod.find?_owned_of_ne _ _ (by rw [hfinalizers]; decide)
    · exact (C.plan.find?_settled_of_ne _ hfinalizers).symm.trans hsame
  | final => exact hsame

theorem Reached.turn (h : C.Reached uid pod₁ o₁) (hturn : o₁.Turn (ns, name) pod₁ pod₂ o₂)
    (hrecords : o₂.records = o₁.records)
    (hkept : ∀ k, k ≠ "resourceVersion" →
      Assoc.find? k pod₂.metadata.toJson.members = Assoc.find? k C.pod.metadata.toJson.members →
        Assoc.find? k pod₁.metadata.toJson.members =
          Assoc.find? k C.pod.metadata.toJson.members) :
    C.Reached uid pod₂ o₂ where
  pods := h.pods.trans hturn hkept
  record := by rw [hrecords]; exact h.record
  others q hq := by rw [hrecords]; exact h.others q hq

end

section

variable {info : Pod → String → Option Ledger → Option (Except Info.Error Info)}
  {C : Course info runningRequeue s.objects ns name}

/-- A record in which nothing changes is written already. -/
theorem reached_of_unchanged {a : Application} (hrecord : C.plan.record = some a)
    (hexisting : C.existing = some a) (uid : String) : C.Reached uid C.pod s.objects := by
  refine ⟨.refl C.hasPod, ?_, fun _ _ => rfl⟩
  have hholds := C.holds
  rw [hexisting] at hholds
  obtain ⟨-, j, hstored, ⟨ms, metadata, hmeta⟩, hread⟩ := hholds
  rw [hrecord]
  refine ⟨j, a.metadata.resourceVersion, hstored, ⟨ms, metadata, hmeta⟩, ?_, ?_⟩
  · rw [revision, hexisting, Objects.revision_self hstored hmeta]
  · rw [hexisting]
    exact hread

/-- A record that is written is there, under its version. -/
theorem reached_putRecord (hreadable : C.Readable) {a : Application}
    (hrecord : C.plan.record = some a) (hne : C.existing ≠ some a) {uid : String}
    (hmeta : ∃ ms metadata, HasMetadata (C.revision a uid) ms metadata) (version : String) :
    C.Reached uid C.pod (s.objects.putRecord (ns, C.applicationId)
      (withMetadata "resourceVersion" version (C.revision a uid))) := by
  obtain ⟨ms, metadata, hmeta⟩ := hmeta
  refine ⟨?_, ?_, fun q hq => Function.update_of_ne hq ..⟩
  · obtain ⟨ms, metadata, hpod⟩ := C.hasPod.metadata
    exact ⟨_, _, C.hasPod, C.hasPod.putRecord _ _, .refl hpod _, fun _ _ => rfl⟩
  · rw [hrecord]
    refine ⟨_, some version, Function.update_self .., ?_, hmeta.unversioned_withMetadata version,
      hreadable a hrecord hne uid version⟩
    rw [Object.withMetadata_eq_amend]
    exact ⟨_, _, hmeta.amend _⟩

/-- The record is written, or it is as it was. -/
private theorem ensures_recorded (hreadable : C.Readable) :
    S.Ensures (C.plan.recorded C.existing) s
      (fun stored s' => ∃ uid version, stored = (C.stored uid).map (·.under version) ∧
        C.Reached uid C.pod s'.objects)
      (fun s' => C.Progress s'.objects) := by
  have hprogress {uid : String} {o : Objects} (h : C.Reached uid C.pod o) : C.Progress o :=
    .inr ⟨uid, C.pod, C.pod.metadata.resourceVersion, .recorded, h⟩
  unfold Plan.recorded
  cases hrecord : C.plan.record with
  | none =>
    have hreached : C.Reached "" C.pod s.objects :=
      ⟨.refl C.hasPod, by rw [hrecord], fun _ _ => rfl⟩
    exact .of_run rfl ⟨"", none, by rw [stored, hrecord]; rfl, hreached⟩ (.inl rfl)
  | some a =>
    rcases Server.run_writeApplication (S := S) C.holds (C.revisable a hrecord) with
      ⟨hsame, hrun⟩ | ⟨hne, e, revised, hrevised, -, hread, ⟨ms, metadata, hmeta⟩, hrun⟩
    · refine .of_run (Server.run_bind_of_ok hrun) ⟨"", a.metadata.resourceVersion, ?_, ?_⟩
        (.inl rfl)
      · rw [stored, hrecord, hsame]
        rfl
      · exact reached_of_unchanged hrecord hsame ""
    · have hreached : C.Reached (S.uid s.said.length) C.pod
          (s.objects.putRecord (ns, C.applicationId) revised) := by
        rw [hrevised]
        exact reached_putRecord hreadable hrecord hne ⟨ms, metadata, hmeta⟩ _
      have hshown : Application.ofJson? revised = some ((a.assigned C.existing
          (S.uid s.said.length)).under (some (S.version s.said.length))) := by
        rw [hrevised]
        exact hreadable a hrecord hne _ _
      rw [shown, hshown] at hrun
      refine .of_attempt (Server.run_map_attempt hrun some) (fun stored' hstored => ?_) ?_ ?_
      · cases hstored
        refine ⟨S.uid s.said.length, some (S.version s.said.length), ?_, hreached⟩
        rw [stored, hrecord]
        rfl
      · exact hprogress hreached
      -- A write that fails leaves what was stored before, or what it was to store.
      · rintro error o' (rfl | rfl)
        · exact .inl rfl
        · exact hprogress hreached

/-- The pod is recorded, and it is owned by its record if it is to be. -/
private theorem ensures_tracked (hreadable : C.Readable) :
    S.Ensures (C.plan.tracked C.pod C.existing) s
      (fun pod' s' => ∃ uid version, pod' = (C.ownedPod uid).under version ∧
        C.Reached uid pod' s'.objects)
      (fun s' => C.Progress s'.objects) := by
  refine (ensures_recorded hreadable).bind fun stored s₁ hpost hany => ?_
  obtain ⟨uid, version, rfl, hreached⟩ := hpost
  obtain ⟨j, j', -, hpod, -⟩ := hreached.pods
  rw [Plan.owner?_under]
  have hturned {version : Option String} {o' : Objects} (hrecords : o'.records = s₁.objects.records)
      (hturn : s₁.objects.Turn (ns, name) C.pod ((C.ownedPod uid).under version) o') :
      C.Reached uid ((C.ownedPod uid).under version) o' :=
    hreached.turn hturn hrecords fun _ _ _ => rfl
  refine ((Plan.changes_own hpod _).ensures hpod).mono ?_ ?_
  · rintro pod' s₂ ⟨version', rfl, hrecords, hturn⟩
    exact ⟨uid, version', rfl, hturned hrecords hturn⟩
  · rintro s₂ (hsame | ⟨version', hrecords, hturn⟩)
    · exact hsame ▸ hany
    · exact .inr ⟨uid, _, version', .owned, hturned hrecords hturn⟩

/-- A plan comes to its last stage, or it ends at one before. -/
theorem ensures_carriedOut (hreadable : C.Readable) :
    S.Ensures (C.plan.carriedOut C.pod C.existing) s
      (fun outcome s' => outcome = C.plan.outcome ∧
        ∃ uid version, C.Reached uid ((C.finalPod uid).under version) s'.objects)
      (fun s' => C.Progress s'.objects) := by
  refine (ensures_tracked hreadable).bind fun pod' s₁ hpost hany => ?_
  obtain ⟨uid, version, rfl, hreached⟩ := hpost
  obtain ⟨j, j', -, hpod, -⟩ := hreached.pods
  have hturned {version' : Option String} {o' : Objects}
      (hrecords : o'.records = s₁.objects.records)
      (hturn : s₁.objects.Turn (ns, name) ((C.ownedPod uid).under version)
        ((C.plan.settled ((C.ownedPod uid).under version)).under version') o') :
      C.Reached uid ((C.finalPod uid).under version') o' := by
    rw [Plan.settled_under, Pod.under_under] at hturn
    exact hreached.turn hturn hrecords fun k hk => IsStage.owned.kept hk
  have hsettled : S.Ensures (C.plan.settle ((C.ownedPod uid).under version)) s₁
      (fun _ s' => ∃ version', C.Reached uid ((C.finalPod uid).under version') s'.objects)
      (fun s' => C.Progress s'.objects) := by
    refine ((Plan.changes_settle hpod C.plan).ensures hpod).mono ?_ ?_
    · rintro _ s₂ ⟨version', -, hrecords, hturn⟩
      exact ⟨version', hturned hrecords hturn⟩
    · rintro s₂ (hsame | ⟨version', hrecords, hturn⟩)
      · exact hsame ▸ hany
      · exact .inr ⟨uid, _, version', .final, hturned hrecords hturn⟩
  refine hsettled.bind fun _ s₂ hpost hany => ?_
  exact .of_run rfl ⟨rfl, uid, hpost⟩ hany

/-- A record that can be read is written if no request fails. -/
private theorem exists_run_recorded (hS : S.Serves) (hreadable : C.Readable) :
    ∃ stored s', S.run (C.plan.recorded C.existing) s = (.done (.ok stored), s') := by
  unfold Plan.recorded
  cases hrecord : C.plan.record with
  | none => exact ⟨none, s, rfl⟩
  | some a =>
    refine Server.exists_run_bind_eq_ok ?_ fun stored s₁ _ => ⟨some stored, s₁, rfl⟩
    rcases Server.run_writeApplication (S := S) C.holds (C.revisable a hrecord) with
      ⟨-, hrun⟩ | ⟨hne, e, revised, rfl, -, -, -, hrun⟩
    · exact ⟨a, s, hrun⟩
    · have hshown := hreadable a hrecord hne (S.uid s.said.length) (S.version s.said.length)
      rw [revision] at hshown
      rw [shown, hshown, hS.attempt_eq] at hrun
      exact ⟨_, _, hrun⟩

/-- A plan is carried out if no request fails. -/
theorem exists_run_carriedOut (hS : S.Serves) (hreadable : C.Readable) :
    ∃ outcome s', S.run (C.plan.carriedOut C.pod C.existing) s = (.done (.ok outcome), s') := by
  refine Server.exists_run_bind_eq_ok ?_ fun pod' s₁ hrun => ?_
  · refine Server.exists_run_bind_eq_ok (exists_run_recorded hS hreadable) fun stored s₁ hrun => ?_
    obtain ⟨uid, version, -, hreached⟩ := (ensures_recorded hreadable).ok _ _ hrun
    obtain ⟨j, j', -, hpod, -⟩ := hreached.pods
    exact (Plan.changes_own hpod _).exists_run hS
  · obtain ⟨uid, version, -, hreached⟩ := (ensures_tracked hreadable).ok _ _ hrun
    obtain ⟨j, j', -, hpod, -⟩ := hreached.pods
    refine Server.exists_run_bind_eq_ok ((Plan.changes_settle hpod C.plan).exists_run hS)
      fun _ s₂ _ => ⟨_, s₂, rfl⟩

/-- The record can be read if the plan is carried out at all. -/
theorem readable_of_run {outcome : Outcome} {s' : Site}
    (h : S.run (C.plan.carriedOut C.pod C.existing) s = (.done (.ok outcome), s')) :
    C.Readable := by
  intro a hrecord hne uid version
  cases hexisting : C.existing with
  | none =>
    rw [revision, hexisting]
    exact a.ofJson?_created uid version
  | some b =>
    obtain ⟨_, _, htracked, -⟩ := Server.run_bind_eq_ok_iff.1 h
    obtain ⟨_, _, hrecorded, -⟩ := Server.run_bind_eq_ok_iff.1 htracked
    rw [Plan.recorded, hrecord] at hrecorded
    obtain ⟨_, _, hwrite, -⟩ := Server.run_bind_eq_ok_iff.1 hrecorded
    rcases Server.run_writeApplication (S := S) C.holds (C.revisable a hrecord) with
      ⟨hsame, -⟩ | ⟨-, e, revised, hrevised, -, hread, ⟨ms, metadata, hmeta⟩, hrun⟩
    · exact absurd hsame hne
    rcases S.attempt_cases .store e _ _ s with hserved | ⟨_, _, -, hfailed⟩
    -- The answer was read from the patched document, so it can be read under any version.
    · have hshown := congrArg Prod.fst ((hserved.symm.trans hrun.symm).trans hwrite)
      obtain ⟨c, hc⟩ : ∃ c, Application.ofJson? revised = some c := by
        refine Option.ne_none_iff_exists'.1 fun hnone => ?_
        rw [shown, hnone] at hshown
        cases hshown
      obtain ⟨-, rfl⟩ := hread c hc
      rw [hrevised] at hc
      have hagain := Application.ofJson?_of_withMetadata_version hmeta hc version
      rw [revision, hexisting]
      rw [hexisting] at hagain
      exact hagain
    · cases (hfailed.symm.trans hrun.symm).trans hwrite

/-- Nothing is asked for where everything is as planned. -/
theorem run_carriedOut_of_done {uid : String} (hrecord : C.plan.record = C.existing)
    (howned : C.ownedPod uid = C.pod) (hfinal : C.finalPod uid = C.pod) :
    S.run (C.plan.carriedOut C.pod C.existing) s = (.done (.ok C.plan.outcome), s) := by
  have hstored : C.stored uid = C.existing := by
    rw [stored, hrecord]
    cases C.existing <;> rfl
  have hrecorded : S.run (C.plan.recorded C.existing) s = (.done (.ok C.existing), s) := by
    unfold Plan.recorded
    rw [hrecord]
    cases hexisting : C.existing with
    | none => rfl
    | some a =>
      have hrevisable := C.revisable a (hrecord.trans hexisting)
      rcases Server.run_writeApplication (S := S) C.holds hrevisable with
        ⟨-, hrun⟩ | ⟨hne, -⟩
      · rw [hexisting] at hrun
        exact Server.run_bind_of_ok hrun
      · exact absurd hexisting hne
  have hown : S.run (Plan.own C.pod (C.plan.owner? C.existing)) s = (.done (.ok C.pod), s) := by
    rw [ownedPod, hstored] at howned
    exact (Plan.changes_own C.hasPod _).run_of_eq howned
  have hsettle : S.run (C.plan.settle C.pod) s = (.done (.ok ()), s) := by
    rw [finalPod, howned] at hfinal
    exact (Plan.changes_settle C.hasPod C.plan).run_of_eq hfinal
  have htracked : S.run (C.plan.tracked C.pod C.existing) s = (.done (.ok C.pod), s) :=
    (Server.run_bind_of_ok hrecorded).trans hown
  exact (Server.run_bind_of_ok htracked).trans (Server.run_bind_of_ok hsettle)

end

end Course

end SparkLedger.Tracker

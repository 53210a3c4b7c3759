import SparkLedger.Proofs.Tracker.Executors
import SparkLedger.Proofs.Tracker.Stages

/-!
# Pods that are let go

A pod is let go only while it is being deleted, and only once its last state is recorded or because
it goes with a record that is gone. This holds whatever the server answers to the requests before
and whichever of them fail: the request that ends the tracking is the last one of a reconcile, and
it is not made unless the record was written, or says so already.

* `Pod.Untracks`: patches that may end the tracking of a pod.
* `Recorded`, `Application.Spec.Tells`: a record, and what it says of a pod at last.
* `released_once_recorded`: why a pod is let go.
-/

namespace SparkLedger

/-! ## Patches that end the tracking -/

namespace Pod

open Object (conditionalPatch?)

/-- Whether the document of a pod lists the tracking finalizer. -/
def listsTracking (j : Json) : Bool :=
  match j.at? ["metadata", "finalizers"] with
  | some (.arr fs) => fs.any fun f => f.asString? == some trackingFinalizer
  | _ => false

/-- There is a pod that is not tracked any more after the patch. -/
def Untracks (p : Json) : Prop :=
  ∃ j, listsTracking j = true ∧ listsTracking (p.merge j) = false

variable {p : Json} {pod pod' : Pod}

/-- A document lists the tracking finalizer if it has the finalizers of a tracked pod. -/
theorem listsTracking_eq {j : Json}
    (h : j.at? ["metadata", "finalizers"] = Assoc.find? "finalizers" pod.metadata.toJson.members) :
    listsTracking j = pod.isTracked := by
  rw [listsTracking, h, Object.Metadata.find?_finalizers, isTracked]
  cases pod.metadata.finalizers with
  | none => rfl
  | some fs =>
    refine Bool.eq_iff_iff.2 ?_
    rw [Option.getD_some, List.contains_iff_mem]
    change (fs.map Json.str).any _ = true ↔ _
    rw [List.any_map, List.any_eq_true]
    constructor
    · rintro ⟨f, hf, hsame⟩
      cases Option.some.inj (eq_of_beq hsame)
      exact hf
    · exact fun hmem => ⟨_, hmem, beq_self_eq_true _⟩

/-- A patch of a pod leaves the finalizers that a document lists, or makes them those of the changed
pod. -/
theorem at?_finalizers_merge (hp : conditionalPatch? pod pod' = some p) (hchange : Change pod pod')
    {j v : Json} (hj : j.at? ["metadata", "finalizers"] = some v) :
    (Assoc.find? "finalizers" pod'.metadata.toJson.members =
        Assoc.find? "finalizers" pod.metadata.toJson.members ∧
      (p.merge j).at? ["metadata", "finalizers"] = some v) ∨
    (Assoc.find? "finalizers" pod'.metadata.toJson.members ≠
        Assoc.find? "finalizers" pod.metadata.toJson.members ∧
      (p.merge j).at? ["metadata", "finalizers"] =
        Assoc.find? "finalizers" pod'.metadata.toJson.members) := by
  obtain ⟨pd, pm, rfl, hpd, hpmd, hpm, -, hmetadata, -⟩ :=
    Object.exists_members_of_conditionalPatch? hp hchange.version_eq
  obtain ⟨m, hm, hfs⟩ := Option.bind_eq_some_iff.1 hj
  obtain ⟨_, hfs, hsame⟩ := Option.bind_eq_some_iff.1 hfs
  cases hsame
  have hmerged : ((Json.obj pd).merge j).at? ["metadata", "finalizers"] =
      Json.mergedMember (Assoc.find? "finalizers" pm) (some v) := by
    rw [Json.at?, Json.member?_merge hpd, hm]
    cases hmeta : Assoc.find? "metadata" pd with
    | none =>
      rw [hmeta] at hpm
      cases hpm
      simp [Json.mergedMember, Json.at?, hfs]
    | some q =>
      rw [hmeta] at hpm
      cases hpm
      simp [Json.mergedMember, Json.at?, Json.member?_merge hpmd, hfs]
  have hfinalizers : Assoc.find? "finalizers" pm = Json.diffMember
      (Assoc.find? "finalizers" pod.metadata.toJson.members)
      (Assoc.find? "finalizers" pod'.metadata.toJson.members) := hmetadata "finalizers" (by decide)
  rw [hmerged, hfinalizers]
  by_cases hsame : Assoc.find? "finalizers" pod'.metadata.toJson.members =
      Assoc.find? "finalizers" pod.metadata.toJson.members
  · refine .inl ⟨hsame, ?_⟩
    rw [hsame, Json.diffMember_self]
    rfl
  · exact .inr ⟨hsame, Json.mergedMember_diffMember_of_ne_obj (Ne.symm hsame)
      (fun v => (Object.Metadata.faithful.plain pod.metadata).member)
      (fun v => (Object.Metadata.faithful.plain pod'.metadata).member)
      ((hchange.members "finalizers").resolve_left hsame)⟩

theorem exists_at?_of_listsTracking {j : Json} (h : listsTracking j = true) :
    ∃ v, j.at? ["metadata", "finalizers"] = some v := by
  refine Option.ne_none_iff_exists'.1 fun hnone => ?_
  rw [listsTracking, hnone] at h
  cases h

/-- A patch to a pod with the same finalizers, or to one that is tracked, ends no tracking. -/
theorem not_untracks_conditionalPatch? (hp : conditionalPatch? pod pod' = some p)
    (hchange : Change pod pod')
    (h : Assoc.find? "finalizers" pod'.metadata.toJson.members =
      Assoc.find? "finalizers" pod.metadata.toJson.members ∨ pod'.isTracked = true) :
    ¬ Untracks p := by
  rintro ⟨j, hlists, hnot⟩
  refine Bool.eq_false_iff.1 hnot ?_
  obtain ⟨v, hv⟩ := exists_at?_of_listsTracking hlists
  rcases at?_finalizers_merge hp hchange hv with ⟨-, hkept⟩ | ⟨hne, hnew⟩
  · rwa [listsTracking, hkept.trans hv.symm]
  · rw [listsTracking_eq hnew, h.resolve_left hne]

theorem not_untracks_owned {reference : Option Object.OwnerReference}
    (hp : conditionalPatch? pod (pod.owned reference) = some p) : ¬ Untracks p :=
  not_untracks_conditionalPatch? hp (change_owned pod reference) <|
    .inl (find?_owned_of_ne pod reference (by decide))

theorem not_untracks_tracked (hp : conditionalPatch? pod pod.tracked = some p) : ¬ Untracks p :=
  not_untracks_conditionalPatch? hp (.of_finalizers pod _) <| .inr <| by
    simp [isTracked, tracked]

theorem at?_metadata_toJson (pod : Pod) (key : String) :
    pod.toJson.at? ["metadata", key] = Assoc.find? key pod.metadata.toJson.members := by
  have hmeta : pod.toJson.member? "metadata" = some pod.metadata.toJson :=
    (Object.hasMetadata_toJson pod).find?_metadata
  rw [Json.at?, hmeta, Option.bind_some, Json.at?]
  exact Option.bind_fun_some _

/-- A tracked pod is let go by a patch that ends its tracking. -/
theorem exists_untracks_released (htracked : pod.isTracked = true) :
    ∃ p, conditionalPatch? pod pod.released = some p ∧ Untracks p := by
  have hne : pod ≠ pod.released := fun h => by
    rw [h, isTracked_released] at htracked
    cases htracked
  obtain ⟨p, hp⟩ := Option.ne_none_iff_exists'.1 (mt Object.eq_of_conditionalPatch?_eq_none hne)
  have hlists : listsTracking pod.toJson = true :=
    (listsTracking_eq (at?_metadata_toJson pod "finalizers")).trans htracked
  refine ⟨p, hp, pod.toJson, hlists, ?_⟩
  obtain ⟨v, hv⟩ := exists_at?_of_listsTracking hlists
  have hmerged : (p.merge pod.toJson).at? ["metadata", "finalizers"] =
      Assoc.find? "finalizers" pod.released.metadata.toJson.members := by
    rcases at?_finalizers_merge hp (.of_finalizers pod _) hv with ⟨hsame, hkept⟩ | ⟨-, hnew⟩
    · rw [hkept, ← hv, at?_metadata_toJson]
      exact hsame.symm
    · exact hnew
  rw [listsTracking_eq hmerged, isTracked_released]

/-- The last state of a pod: as it is, and deleted. -/
def Snapshot.last (pod : Pod) : Snapshot := { ofPod pod with deleted := true }

theorem Snapshot.following_eq_last (previous : Option Snapshot) (h : pod.isDeleting = true) :
    following previous pod = last pod := by
  cases previous with
  | none =>
    rw [following, last, ← h]
    rfl
  | some s => rw [following, refreshed, h, Bool.true_or, last]

end Pod

/-! ## Records that tell the last state -/

namespace Application

open Pod (Role Snapshot)

namespace Spec

variable {pod : Pod}

/-- The last state of a pod is recorded according to its role. -/
def Tells (s : Spec) (pod : Pod) : Role → Prop
  | .driver => s.driver = some (.last pod)
  | .executor => ∃ uid, pod.metadata.uid = some uid ∧
      s.executors.find? (·.uid = uid) = some (.last pod)

theorem driverSnapshot_eq_last (s : Spec) (h : pod.isDeleting = true) :
    s.driverSnapshot pod = .last pod :=
  Snapshot.following_eq_last _ h

theorem find?_putExecutor {uid : String} (huid : pod.metadata.uid = some uid)
    (hdeleting : pod.isDeleting = true) (executors : List Snapshot) :
    (putExecutor uid pod executors).find? (·.uid = uid) = some (.last pod) := by
  rw [find?_uid_putExecutor (uid_ofPod huid), if_pos rfl]
  exact congrArg some (Snapshot.following_eq_last _ hdeleting)

end Spec

end Application

namespace Tracker

open Dialogue (Transcript Exchange)
open Object (conditionalPatch?)
open Pod (Role)
open Server (podRead recordRead)

variable {S : Server} {s s' : Site} {runningRequeue : Seconds} {ns name : String}

namespace Plan

variable {info : Pod → String → Option Ledger → Option (Except Info.Error Info)} {pod : Pod}
  {applicationId : String} {existing : Option Application} {role : Role} {plan : Plan}

/-- The record that is planned for a pod that is being deleted tells its last state, unless the pod
goes with a record that is gone. -/
theorem tells_of_of? (hplan : of? info runningRequeue pod applicationId existing role = some plan)
    (hdeleting : pod.isDeleting = true) :
    (existing = none ∧ (role = .executor ∨ pod.isOwnedBy applicationId = true)) ∨
      ∃ a, plan.record = some a ∧ a.spec.Tells pod role := by
  unfold of? at hplan
  split at hplan
  · rename_i hgone
    simp only [Bool.and_eq_true, Option.isNone_iff_eq_none] at hgone
    refine .inl ⟨hgone.1.1, ?_⟩
    cases role with
    | driver => exact .inr hgone.2
    | executor => exact .inl rfl
  · right
    cases role with
    | driver =>
      obtain ⟨⟨_, podName⟩, -, hplan⟩ := Option.bind_eq_some_iff.1 hplan
      obtain ⟨heritage, answer, spec, failure, -, -, hinformed, rfl⟩ :=
        ofDriver?_eq_some_iff.1 hplan
      have hdriver : spec.driver = some _ := (informed?_keeps hinformed).1
      refine ⟨_, rfl, hdriver.trans (congrArg some ?_)⟩
      exact Application.Spec.driverSnapshot_eq_last _ hdeleting
    | executor =>
      obtain ⟨uid, stored, huid, -, rfl⟩ := ofExecutor?_eq_some_iff.1 hplan
      exact ⟨_, rfl, uid, huid, Application.Spec.find?_putExecutor huid hdeleting _⟩

end Plan

/-! ## Exchanges that end the tracking -/

/-- The patch of a pod that is asked for. -/
def Question.podPatch? : Question → Option Json
  | .patchPod _ _ p => some p
  | _ => none

/-- The exchange asks for a patch that may end the tracking of a pod. -/
def Exchange.Untracks (e : Exchange Tracking) : Prop :=
  ∃ p, Question.podPatch? e.question = some p ∧ Pod.Untracks p

/-- The record is stored as this: it was written so, or it was read so and not written since. -/
def Recorded (place : String × String) (a : Application) (t : Transcript Tracking) : Prop :=
  (∃ e ∈ t, Exchange.Writes place a e) ∨
    (recordRead place.1 place.2 (some a) ∈ t ∧ ∀ e ∈ t, e.question.isChange = false)

/-- The pod may be let go: it is being deleted, and its record is gone and takes it along, or tells
its last state. -/
def MayGo (ns name : String) (t : Transcript Tracking) : Prop :=
  ∃ pod applicationId role, podRead ns name pod ∈ t ∧ pod.isDeleting = true ∧
    pod.member? = some (applicationId, role) ∧
    ((recordRead ns applicationId none ∈ t ∧
        (role = .executor ∨ pod.isOwnedBy applicationId = true)) ∨
      ∃ a, Recorded (ns, applicationId) a t ∧ a.spec.Tells pod role)

/-- No tracking ends in these exchanges. -/
def Calm (t : Transcript Tracking) : Prop := ∀ e ∈ t, ¬ Exchange.Untracks e

theorem isChange_of_isWrite {q : Question} (h : q.isWrite = false) : q.isChange = false := by
  cases q <;> first | rfl | cases h

/-- Whenever tracking ends, the pod may go by what was exchanged before. -/
def Justified (ns name : String) (t : Transcript Tracking) : Prop :=
  ∀ t₁ e t₂, t = t₁ ++ e :: t₂ → Exchange.Untracks e → MayGo ns name t₁

variable {t : Transcript Tracking} {e : Exchange Tracking}

theorem Recorded.concat {place : String × String} {a : Application} (h : Recorded place a t)
    (he : e.question.isChange = false) : Recorded place a (t ++ [e]) := by
  rcases h with ⟨e', he', hwrites⟩ | ⟨hread, hunchanged⟩
  · exact .inl ⟨e', List.mem_append_left _ he', hwrites⟩
  · refine .inr ⟨List.mem_append_left _ hread, fun e' he' => ?_⟩
    rcases List.mem_append.1 he' with h | h
    · exact hunchanged e' h
    · rw [List.mem_singleton.1 h, he]

theorem MayGo.concat (h : MayGo ns name t) (he : e.question.isChange = false) :
    MayGo ns name (t ++ [e]) := by
  obtain ⟨pod, applicationId, role, hpod, hdeleting, hmember, h⟩ := h
  refine ⟨pod, applicationId, role, List.mem_append_left _ hpod, hdeleting, hmember, ?_⟩
  rcases h with ⟨hnone, hgoes⟩ | ⟨a, hrecorded, htells⟩
  · exact .inl ⟨List.mem_append_left _ hnone, hgoes⟩
  · exact .inr ⟨a, hrecorded.concat he, htells⟩

namespace Calm

theorem of_reads (h : Reads t) : Calm t := by
  rintro ⟨q, a⟩ he ⟨p, hq, -⟩
  have hread : q.isWrite = false := h ⟨q, a⟩ he
  cases q with
  | patchPod ns name p => cases hread
  | _ => cases hq

theorem concat (h : Calm t) (he : ¬ Exchange.Untracks e) : Calm (t ++ [e]) := by
  intro e' he'
  rcases List.mem_append.1 he' with h' | h'
  · exact h e' h'
  · exact List.mem_singleton.1 h' ▸ he

theorem concat_of_isChange (h : Calm t) (he : e.question.isChange = true) : Calm (t ++ [e]) := by
  refine h.concat ?_
  obtain ⟨q, a⟩ := e
  rintro ⟨p, hq, -⟩
  change q.isChange = true at he
  cases q with
  | patchPod ns name p => cases he
  | _ => cases hq

theorem justified (h : Calm t) : Justified ns name t := by
  rintro t₁ e t₂ rfl he
  exact absurd he (h e (List.mem_append_right _ List.mem_cons_self))

/-- The tracking may end once the pod may go. -/
theorem justified_concat (h : Calm t) (hmay : MayGo ns name t) (e : Exchange Tracking) :
    Justified ns name (t ++ [e]) := by
  intro t₁ e' t₂ ht he'
  -- Tracking ends with the last exchange, or with one before, where it cannot.
  rcases List.eq_nil_or_concat t₂ with rfl | ⟨t', x, rfl⟩
  · obtain ⟨rfl, -⟩ := List.append_inj' ht rfl
    exact hmay
  · rw [List.concat_eq_append, ← List.cons_append, ← List.append_assoc] at ht
    obtain ⟨rfl, -⟩ := List.append_inj' ht rfl
    exact absurd he' (h e' (List.mem_append_right _ List.mem_cons_self))

end Calm

/-! ## What a reconcile exchanges -/

namespace Server

variable {α : Type}

/-- A change of a pod adds one patch at most to what was exchanged. -/
theorem Changes.ensures_said {x : Work α} {result : Pod → α} {place : String × String}
    {pod pod' : Pod} {j : Json} (h : S.Changes x result s place pod pod')
    (hpod : s.objects.HasPod place j pod) {P : Transcript Tracking → Prop} (hsame : P s.said)
    (hsent : ∀ p (a : Except Kube.Error Pod), conditionalPatch? pod pod' = some p →
      P (s.said ++ [⟨.patchPod place.1 place.2 p, a⟩])) :
    S.Ensures x s
      (fun a s' => P s'.said ∧ ∃ version j', a = result (pod'.under version) ∧
        s'.objects.HasPod place j' (pod'.under version))
      (fun s' => P s'.said) := by
  rcases h with ⟨rfl, hrun⟩ | ⟨cause, p, o, version, hp, -, ⟨_, j', -, hpod', -⟩, hrun⟩
  · exact .of_run hrun ⟨hsame, pod'.metadata.resourceVersion, j, rfl, hpod⟩ hsame
  · refine .of_attempt hrun (fun a ha => ?_) (hsent p _ hp) fun error _ _ => hsent p _ hp
    cases ha
    exact ⟨hsent p _ hp, version, j', rfl, hpod'⟩

end Server

namespace Course

variable {info : Pod → String → Option Ledger → Option (Except Info.Error Info)}
  {C : Course info runningRequeue s.objects ns name}

/-- Once the record is written, a pod that is being deleted may go. -/
private theorem ensures_said_recorded (hreads : Reads s.said)
    (hpod : podRead ns name C.pod ∈ s.said)
    (hrecord : recordRead ns C.applicationId C.existing ∈ s.said) :
    S.Ensures (C.plan.recorded C.existing) s
      (fun _ s' => (Calm s'.said ∧ (C.pod.isDeleting = true → MayGo ns name s'.said)) ∧
        ∃ j, s'.objects.HasPod (ns, name) j C.pod)
      (fun s' => Calm s'.said) := by
  have hcalm := Calm.of_reads hreads
  have hmay (t : Transcript Tracking) (hsub : s.said ⊆ t)
      (hrecorded : ∀ a, C.plan.record = some a →
        ∃ b, Recorded (ns, C.applicationId) b t ∧ b.spec = a.spec)
      (hdeleting : C.pod.isDeleting = true) : MayGo ns name t := by
    refine ⟨C.pod, C.applicationId, C.role, hsub hpod, hdeleting, C.member, ?_⟩
    rcases Plan.tells_of_of? C.planned hdeleting with ⟨hnone, hgoes⟩ | ⟨a, ha, htells⟩
    · exact .inl ⟨hsub (hnone ▸ hrecord), hgoes⟩
    · obtain ⟨b, hb, hspec⟩ := hrecorded a ha
      exact .inr ⟨b, hb, hspec ▸ htells⟩
  unfold Plan.recorded
  cases ha : C.plan.record with
  | none =>
    have hnever : ∀ a, C.plan.record = some a →
        ∃ b, Recorded (ns, C.applicationId) b s.said ∧ b.spec = a.spec := by
      intro a h
      cases ha.symm.trans h
    exact .of_run rfl ⟨⟨hcalm, hmay _ (List.Subset.refl _) hnever⟩, _, C.hasPod⟩ hcalm
  | some a =>
    rcases Server.run_writeApplication (S := S) C.holds (C.revisable a ha) with
      ⟨hsame, hrun⟩ | ⟨-, e, revised, -, hchange, hread, -, hrun⟩
    -- Nothing is written: the record says all of it since it was read.
    · have hunchanged : ∀ e ∈ s.said, e.question.isChange = false :=
        fun e he => isChange_of_isWrite (hreads e he)
      refine .of_run (Server.run_bind_of_ok hrun)
        ⟨⟨hcalm, hmay _ (List.Subset.refl _) fun a' ha' => ?_⟩, _, C.hasPod⟩ hcalm
      cases ha.symm.trans ha'
      exact ⟨a, .inr ⟨hsame ▸ hrecord, hunchanged⟩, rfl⟩
    · have hcalm' (error : Kube.Error) :
          Calm (s.said ++ [⟨e.question, e.question.failed error⟩]) :=
        hcalm.concat_of_isChange hchange
      refine .of_attempt (Server.run_map_attempt hrun some) (fun stored hstored => ?_)
        (hcalm.concat_of_isChange hchange) fun error _ _ => hcalm' error
      obtain ⟨b, hb⟩ : ∃ b, Application.ofJson? revised = some b := by
        refine Option.ne_none_iff_exists'.1 fun hnone => ?_
        rw [shown, hnone] at hstored
        cases hstored
      obtain ⟨hwrites, hspec⟩ := hread b hb
      refine ⟨⟨hcalm.concat_of_isChange hchange,
        hmay _ (List.subset_append_left ..) fun a' ha' => ?_⟩, _, C.hasPod.putRecord _ _⟩
      cases ha.symm.trans ha'
      refine ⟨b, .inl ⟨e, List.mem_append_right _ (List.mem_singleton_self e), hwrites⟩, ?_⟩
      rw [hspec]
      cases C.existing <;> rfl

/-- Once the pod is recorded, it may go if it is being deleted. -/
private theorem ensures_said_tracked (hreads : Reads s.said) (hpod : podRead ns name C.pod ∈ s.said)
    (hrecord : recordRead ns C.applicationId C.existing ∈ s.said) :
    S.Ensures (C.plan.tracked C.pod C.existing) s
      (fun pod' s' => (Calm s'.said ∧ (C.pod.isDeleting = true → MayGo ns name s'.said)) ∧
        pod'.isDeleting = C.pod.isDeleting ∧ ∃ j, s'.objects.HasPod (ns, name) j pod')
      (fun s' => Calm s'.said) := by
  refine (ensures_said_recorded hreads hpod hrecord).bind fun stored s₁ hpost _ => ?_
  obtain ⟨⟨hcalm, hmay⟩, j, hpod₁⟩ := hpost
  -- The pod that is given an owner is another pod, but one that is deleted if the first is.
  refine ((Plan.changes_own hpod₁ (C.plan.owner? stored)).ensures_said
    (P := fun t => Calm t ∧ (C.pod.isDeleting = true → MayGo ns name t)) hpod₁ ⟨hcalm, hmay⟩
    fun p a hp => ?_).mono ?_ fun _ h => h.1
  · refine ⟨hcalm.concat ?_, fun hdeleting => (hmay hdeleting).concat rfl⟩
    rintro ⟨p', hq, hp'⟩
    cases hq
    exact Pod.not_untracks_owned hp hp'
  · rintro pod' s₂ ⟨hsaid, version, j', rfl, hpod'⟩
    refine ⟨hsaid, ?_, j', hpod'⟩
    cases C.plan.owner? stored <;> rfl

/-- The tracking of a pod ends only once it may go. -/
private theorem ensures_said_carriedOut (hreads : Reads s.said)
    (hpod : podRead ns name C.pod ∈ s.said)
    (hrecord : recordRead ns C.applicationId C.existing ∈ s.said) :
    S.Ensures (C.plan.carriedOut C.pod C.existing) s (fun _ _ => True)
      (fun s' => Justified ns name s'.said) := by
  refine ((ensures_said_tracked hreads hpod hrecord).mono (fun _ _ h => h)
    fun _ h => h.justified).bind fun pod' s₁ hpost _ => ?_
  obtain ⟨⟨hcalm, hmay⟩, hdeleting, j, hpod'⟩ := hpost
  have hsettled : S.Ensures (C.plan.settle pod') s₁ (fun _ _ => True)
      (fun s' => Justified ns name s'.said) := by
    by_cases hdel : pod'.isDeleting = true
    · refine ((Plan.changes_settle hpod' C.plan).ensures_said (P := Justified ns name) hpod'
        hcalm.justified fun p a _ => ?_).mono (fun _ _ _ => trivial) fun _ h => h
      exact hcalm.justified_concat (hmay (hdeleting ▸ hdel)) _
    · have hnothing : C.plan.settle pod' = pure () := by
        rw [Plan.settle, Bool.eq_false_iff.2 hdel]
        rfl
      rw [hnothing]
      exact .of_run rfl trivial hcalm.justified
  exact hsettled.bind fun _ s₂ _ hany => .of_run rfl trivial hany

end Course

/-- Whatever a reconcile exchanges, tracking ends only once the pod may go. -/
theorem justified_reconcile (ho : s.objects.Sound) (hsaid : s.said = []) :
    Justified ns name (S.run (reconcile runningRequeue ns name) s).2.said := by
  have hheard {t : Transcript Tracking} : (s.hear t).said = t := by rw [Site.hear, hsaid]; rfl
  have hreads {t : Transcript Tracking} (ht : Reads t) : Justified ns name (s.hear t).said := by
    rw [hheard]
    exact (Calm.of_reads ht).justified
  have hcases : S.Stops (reconcile runningRequeue ns name) s ∨ _ := Server.run_reconcile rfl ho
  rcases hcases with ⟨r, t, ht, hrun, -⟩ | ⟨-, t, ht, hrun⟩ | ⟨j, pod, t, hpod, -, ht, hrun⟩ |
      ⟨C, t, ht, hpod, hrecord, hrun⟩
  · rw [hrun]
    exact hreads ht
  · rw [hrun]
    exact hreads ht
  · have hpod' : (s.hear t).objects.HasPod (ns, name) j pod := hpod
    have hchange : Pod.Change pod pod.tracked := .of_finalizers pod _
    have hcalm : Calm (s.hear t).said := by
      rw [hheard]
      exact .of_reads ht
    have hheld : S.Ensures (hold pod) (s.hear t) (fun _ _ => True)
        (fun s' => Justified ns name s'.said) := by
      refine ((Server.changes_patchPod hpod' hchange .finalizer).ensures_said (P := Calm) hpod'
        hcalm fun p a hp => hcalm.concat ?_).mono (fun _ _ _ => trivial) fun _ h => h.justified
      rintro ⟨p', hq, hp'⟩
      cases hq
      exact Pod.not_untracks_tracked hp hp'
    have hdone : S.Ensures (do let _ ← hold pod; return Outcome.requeueNow) (s.hear t)
        (fun _ _ => True) (fun s' => Justified ns name s'.said) :=
      hheld.bind fun _ s₂ _ hany => .of_run rfl trivial hany
    rw [hrun]
    exact hdone.any
  · rw [← hheard (t := t)] at ht hpod hrecord
    rw [hrun]
    exact (Course.ensures_said_carriedOut (s := s.hear t) (C := C) ht hpod hrecord).any

/-- A pod is let go only while it is being deleted. Then its record is gone and takes it along, or
the record was written, or found so, with the last state of the pod. -/
theorem released_once_recorded {o : Objects} (ho : o.Sound) {t t' : Transcript Tracking}
    {e : Exchange Tracking}
    (hsaid : (S.run (reconcile runningRequeue ns name) ⟨o, []⟩).2.said = t ++ e :: t')
    (he : Exchange.Untracks e) :
    ∃ pod applicationId role, podRead ns name pod ∈ t ∧ pod.isDeleting = true ∧
      pod.member? = some (applicationId, role) ∧
      ((recordRead ns applicationId none ∈ t ∧
          (role = .executor ∨ pod.isOwnedBy applicationId = true)) ∨
        ∃ record, Recorded (ns, applicationId) record t ∧ record.spec.Tells pod role) :=
  justified_reconcile (s := ⟨o, []⟩) ho rfl t e t' hsaid he

/-- A driver that is being deleted is recorded, owned and let go. -/
theorem released_once_recorded_leaving :
    let S := Server.serving fun _ _ _ => some (.error .noClient)
    ∃ t e t', (S.run (reconcile .ten "spark" "driver") ⟨.leaving, []⟩).2.said = t ++ e :: t' ∧
      Exchange.Untracks e ∧ ∃ pod applicationId role, podRead "spark" "driver" pod ∈ t ∧
        pod.isDeleting = true ∧ pod.member? = some (applicationId, role) ∧
        ((recordRead "spark" applicationId none ∈ t ∧
            (role = .executor ∨ pod.isOwnedBy applicationId = true)) ∨
          ∃ record, Recorded ("spark", applicationId) record t ∧ record.spec.Tells pod role) := by
  intro S
  have hlast : (S.run (reconcile .ten "spark" "driver") ⟨.leaving, []⟩).2.said.any (fun e =>
      (Question.podPatch? e.question).any fun p => Pod.listsTracking leavingDriver.toJson &&
        !Pod.listsTracking (p.merge leavingDriver.toJson)) = true := by decide +kernel
  obtain ⟨e, he, hpatch⟩ := List.any_eq_true.1 hlast
  obtain ⟨p, hp, huntracks⟩ := (Option.any_eq_true ..).1 hpatch
  obtain ⟨t, t', hsaid⟩ := List.append_of_mem he
  simp only [Bool.and_eq_true, Bool.not_eq_true'] at huntracks
  have huntracks : Exchange.Untracks e := ⟨p, hp, _, huntracks⟩
  exact ⟨t, e, t', hsaid, huntracks, released_once_recorded Objects.sound_leaving hsaid huntracks⟩

end Tracker

end SparkLedger

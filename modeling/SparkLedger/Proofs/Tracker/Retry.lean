import SparkLedger.Proofs.Tracker.Again

/-!
# Reconciles that are retried

Whatever becomes of a reconcile, the next one that nothing hinders brings about what the first
would have. The two ends are the same but for what the server assigns: the versions of the objects,
and the uid of a record that is created, by which a pod names its owner.

* `Objects.unversioned`, `Objects.unassigned`: what is stored without what the server assigns.
* `Course.Reached.unversioned_eq`, `Course.Reached.unassigned_eq`: a course has one end.
* `retry_converges`: a reconcile after one that may have failed anywhere.
-/

namespace SparkLedger

/-! ## What the server assigns -/

namespace Object

/-- An object without its uid. -/
def withoutUid : Json → Json
  | .obj ms => .obj (Assoc.erase "uid" ms)
  | j => j

/-- References to owners without their uids. -/
def withoutUids : Json → Json
  | .arr references => .arr (references.map withoutUid)
  | j => j

end Object

open Object (HasMetadata Metadata amend unversioned withoutUids Turned)

/-- The document of a record without its version and its uid. -/
def Application.unassigned (j : Json) : Json := amend [("uid", none)] (unversioned j)

/-- The document of a pod without its version and the uids of its owners. -/
def Pod.unassigned (j : Json) : Json :=
  let owners := (unversioned j).at? ["metadata", "ownerReferences"]
  amend [("ownerReferences", owners.map withoutUids)] (unversioned j)

/-- The uid of a record that is created does not count. -/
theorem Application.unassigned_withMetadata (a : Application) (uid : String) :
    unassigned (Cluster.withMetadata "uid" uid a.toJson) = unassigned a.toJson := by
  rw [unassigned, unassigned, unversioned, unversioned, Object.amend_amend, Object.amend_amend,
    Object.withMetadata_eq_amend]
  exact a.hasMetadata_toJson.amend_amend_of_isSome rfl _

theorem Object.unversioned_eq_of_members {j j' : Json}
    {ms metadata ms' metadata' : List (String × Json)}
    (h : HasMetadata j ms metadata) (h' : HasMetadata j' ms' metadata')
    (hmembers : ∀ k, k ≠ "metadata" → Assoc.find? k ms = Assoc.find? k ms')
    (hmetadata : ∀ k, k ≠ "resourceVersion" → Assoc.find? k metadata = Assoc.find? k metadata') :
    unversioned j = unversioned j' := by
  refine h.amend_congr h' hmembers fun k => ?_
  rw [List.reverse_singleton, Assoc.find?_cons]
  split
  · rfl
  · exact hmetadata k (Ne.symm ‹_›)

theorem Pod.unassigned_eq_of_members {j j' : Json}
    {ms metadata ms' metadata' : List (String × Json)}
    (h : HasMetadata j ms metadata) (h' : HasMetadata j' ms' metadata')
    (hmembers : ∀ k, k ≠ "metadata" → Assoc.find? k ms = Assoc.find? k ms')
    (hmetadata : ∀ k, k ≠ "resourceVersion" → k ≠ "ownerReferences" →
      Assoc.find? k metadata = Assoc.find? k metadata')
    (howners : (Assoc.find? "ownerReferences" metadata).map withoutUids =
      (Assoc.find? "ownerReferences" metadata').map withoutUids) :
    unassigned j = unassigned j' := by
  have hat {j : Json} {ms metadata : List (String × Json)} (h : HasMetadata j ms metadata) :
      (unversioned j).at? ["metadata", "ownerReferences"] =
        Assoc.find? "ownerReferences" metadata := by
    rw [unversioned, (h.amend _).at?_metadata, Object.find?_setMembers]
    rfl
  rw [unassigned, unassigned, hat h, hat h', howners]
  refine (h.amend _).amend_congr (h'.amend _) (fun k hk => ?_) fun k => ?_
  · rw [Assoc.find?_insert, Assoc.find?_insert, if_neg (Ne.symm hk), if_neg (Ne.symm hk),
      hmembers k hk]
  · rw [List.reverse_singleton, Assoc.find?_cons, Object.find?_setMembers, Object.find?_setMembers,
      List.reverse_singleton, Assoc.find?_cons]
    split
    · rfl
    · split
      · rfl
      · exact hmetadata k (Ne.symm ‹_›) (Ne.symm ‹_›)

namespace Tracker

open Info (Sources)

variable {S F S' : Server} {s s₁ : Site} {runningRequeue : Seconds} {ns name : String}

namespace Objects

/-- What is stored, as far as functions of the documents tell. -/
def map (f g : Json → Json) (o : Objects) : Objects where
  pods place := (o.pods place).map f
  records place := (o.records place).map g

/-- What is stored, without versions. -/
def unversioned : Objects → Objects := map Object.unversioned Object.unversioned

/-- What is stored, without versions, the uids of records and those of the owners of pods. -/
def unassigned : Objects → Objects := map Pod.unassigned Application.unassigned

theorem unassigned_unversioned (o : Objects) :
    o.unassigned = o.unversioned.map
      (fun j =>
        amend [("ownerReferences", (j.at? ["metadata", "ownerReferences"]).map withoutUids)] j)
      (amend [("uid", none)]) := by
  refine Objects.ext (funext fun place => ?_) (funext fun place => ?_)
  · change (o.pods place).map Pod.unassigned = ((o.pods place).map Object.unversioned).map _
    rw [Option.map_map]
    rfl
  · change (o.records place).map Application.unassigned =
      ((o.records place).map Object.unversioned).map _
    rw [Option.map_map]
    rfl

end Objects

/-! ## Ends of a course -/

namespace Course

variable {info : Pod → String → Option Ledger → Option (Except Info.Error Info)} {o o₁ o₂ : Objects}
  {C : Course info runningRequeue o ns name} {uid uid₁ uid₂ : String}
  {version₁ version₂ : Option String}

/-- Uids do not count unless a record is created. -/
theorem stored_congr (h : C.existing = none → C.plan.record = none) (uid₁ uid₂ : String) :
    C.stored uid₁ = C.stored uid₂ := by
  cases hexisting : C.existing with
  | none => rw [stored, stored, h hexisting]; rfl
  | some b => rw [stored, stored, hexisting]; rfl

theorem finalPod_congr (h : C.existing = none → C.plan.record = none) (uid₁ uid₂ : String) :
    C.finalPod uid₁ = C.finalPod uid₂ := by
  rw [finalPod, finalPod, ownedPod, ownedPod, stored_congr h uid₁ uid₂]

theorem find?_finalPod_of_ne (C : Course info runningRequeue o ns name) (uid : String) {k : String}
    (hk : k ≠ "ownerReferences") :
    Assoc.find? k (C.finalPod uid).metadata.toJson.members =
      Assoc.find? k (C.plan.settled C.pod).metadata.toJson.members := by
  rw [finalPod, ownedPod, Plan.settled_owned]
  exact Pod.find?_owned_of_ne _ _ hk

/-- The owner of a pod whose record is created, by the uid of the record. -/
theorem owner?_created (h : C.existing = none) (uid : String) :
    C.plan.owner? (C.stored uid) =
      (if C.plan.owns then C.plan.record.bind (·.metadata.name) else none).map fun name =>
        ⟨Application.apiVersion, Application.kind, name, uid, some false, some true⟩ := by
  rw [Plan.owner?, stored, h]
  split
  · cases C.plan.record with
    | none => rfl
    | some a =>
      change (a.metadata.name >>= fun name => some _) = a.metadata.name.map _
      cases a.metadata.name <;> rfl
  · rfl

/-- The owners of a pod whose record is created are the same but for their uids. -/
theorem withoutUids_finalPod (h : C.existing = none) (uid₁ uid₂ : String) :
    (Assoc.find? "ownerReferences" (C.finalPod uid₁).metadata.toJson.members).map withoutUids =
      (Assoc.find? "ownerReferences" (C.finalPod uid₂).metadata.toJson.members).map
        withoutUids := by
  rw [finalPod, finalPod, C.plan.find?_settled_of_ne _ (by decide),
    C.plan.find?_settled_of_ne _ (by decide), ownedPod, ownedPod, owner?_created h,
    owner?_created h]
  cases (if C.plan.owns then C.plan.record.bind (·.metadata.name) else none) with
  | none => rfl
  | some name =>
    rw [Metadata.find?_ownerReferences, Metadata.find?_ownerReferences]
    rfl

/-- The owners of a pod change exactly if it is given one. -/
theorem find?_ownerReferences_finalPod_eq_iff (C : Course info runningRequeue o ns name)
    (uid : String) :
    Assoc.find? "ownerReferences" (C.finalPod uid).metadata.toJson.members =
        Assoc.find? "ownerReferences" C.pod.metadata.toJson.members ↔
      C.plan.owner? (C.stored uid) = none := by
  rw [finalPod, C.plan.find?_settled_of_ne _ (by decide), ownedPod]
  cases howner : C.plan.owner? (C.stored uid) with
  | none => exact iff_of_true rfl rfl
  | some reference =>
    refine iff_of_false (fun hsame => ?_) (Option.some_ne_none _)
    have howns : C.plan.owns = true := by
      by_contra hnot
      rw [Plan.owner?, if_neg hnot] at howner
      cases howner
    have hnone := Plan.hasOwners_of_of? C.planned howns
    rw [Metadata.find?_ownerReferences, Metadata.find?_ownerReferences] at hsame
    cases hreferences : C.pod.metadata.ownerReferences with
    | none =>
      rw [hreferences] at hsame
      cases hsame
    | some references =>
      rw [hasOwners, hreferences, Option.getD_some] at hnone
      cases references with
      | nil =>
        rw [hreferences] at hsame
        cases hsame
      | cons => cases hnone

namespace Reached

/-- The pods at two ends, member by member. -/
private theorem exists_pods (h₁ : C.Reached uid₁ ((C.finalPod uid₁).under version₁) o₁)
    (h₂ : C.Reached uid₂ ((C.finalPod uid₂).under version₂) o₂) :
    ∃ j₁ j₂ ms₁ metadata₁ ms₂ metadata₂, o₁.pods (ns, name) = some j₁ ∧
      o₂.pods (ns, name) = some j₂ ∧ HasMetadata j₁ ms₁ metadata₁ ∧ HasMetadata j₂ ms₂ metadata₂ ∧
      (∀ k, k ≠ "metadata" → Assoc.find? k ms₁ = Assoc.find? k ms₂) ∧
      ∀ k, k ≠ "resourceVersion" →
        (Assoc.find? k (C.finalPod uid₁).metadata.toJson.members =
            Assoc.find? k C.pod.metadata.toJson.members ↔
          Assoc.find? k (C.finalPod uid₂).metadata.toJson.members =
            Assoc.find? k C.pod.metadata.toJson.members) →
        Assoc.find? k metadata₁ = Assoc.find? k metadata₂ ∨
          (Assoc.find? k metadata₁ = Assoc.find? k (C.finalPod uid₁).metadata.toJson.members ∧
            Assoc.find? k metadata₂ = Assoc.find? k (C.finalPod uid₂).metadata.toJson.members) := by
  obtain ⟨j, j₁, hj, hj₁, ⟨ms, metadata, ms₁, metadata₁, hm, hm₁, hms₁, hmetadata₁⟩, -⟩ := h₁.pods
  obtain ⟨j', j₂, hj', hj₂, ⟨ms', metadata', ms₂, metadata₂, hm', hm₂, hms₂, hmetadata₂⟩, -⟩ :=
    h₂.pods
  obtain ⟨rfl, -⟩ := hj.unique hj'
  obtain ⟨rfl, rfl⟩ := hm.unique hm'
  refine ⟨j₁, j₂, ms₁, metadata₁, ms₂, metadata₂, hj₁.stored, hj₂.stored, hm₁, hm₂,
    fun k hk => (hms₁ k hk).trans (hms₂ k hk).symm, fun k hk hsame => ?_⟩
  have hk₁ := hmetadata₁ k hk
  have hk₂ := hmetadata₂ k hk
  rw [Pod.find?_under _ _ hk] at hk₁ hk₂
  rcases hk₁ with ⟨heq₁, hk₁⟩ | ⟨hne₁, hk₁⟩ <;> rcases hk₂ with ⟨heq₂, hk₂⟩ | ⟨hne₂, hk₂⟩
  · exact .inl (hk₁.trans hk₂.symm)
  · exact absurd (hsame.1 heq₁) hne₂
  · exact absurd (hsame.2 heq₂) hne₁
  · exact .inr ⟨hk₁, hk₂⟩

/-- Two ends differ in the pod and its record at most. -/
private theorem map_eq (h₁ : C.Reached uid₁ ((C.finalPod uid₁).under version₁) o₁)
    (h₂ : C.Reached uid₂ ((C.finalPod uid₂).under version₂) o₂) {f g : Json → Json}
    (hpod : (o₁.pods (ns, name)).map f = (o₂.pods (ns, name)).map f)
    (hrecord : ∀ a, C.plan.record = some a → (o₁.records (ns, C.applicationId)).map g =
      (o₂.records (ns, C.applicationId)).map g) :
    o₁.map f g = o₂.map f g := by
  obtain ⟨-, -, -, -, -, hothers₁⟩ := h₁.pods
  obtain ⟨-, -, -, -, -, hothers₂⟩ := h₂.pods
  refine Objects.ext (funext fun place => ?_) (funext fun place => ?_)
  · change (o₁.pods place).map f = (o₂.pods place).map f
    by_cases hplace : place = (ns, name)
    · rw [hplace, hpod]
    · rw [hothers₁ place hplace, hothers₂ place hplace]
  · change (o₁.records place).map g = (o₂.records place).map g
    by_cases hplace : place = (ns, C.applicationId)
    · rw [hplace]
      cases ha : C.plan.record with
      | some a => exact hrecord a ha
      | none =>
        have hrecord₁ := h₁.record
        have hrecord₂ := h₂.record
        rw [ha] at hrecord₁ hrecord₂
        rw [hrecord₁, hrecord₂]
    · rw [h₁.others place hplace, h₂.others place hplace]

/-- A course that creates no record has one end, versions aside. -/
theorem unversioned_eq (h₁ : C.Reached uid₁ ((C.finalPod uid₁).under version₁) o₁)
    (h₂ : C.Reached uid₂ ((C.finalPod uid₂).under version₂) o₂)
    (hcreated : C.existing = none → C.plan.record = none) : o₁.unversioned = o₂.unversioned := by
  refine h₁.map_eq h₂ ?_ fun a ha => ?_
  · obtain ⟨j₁, j₂, ms₁, metadata₁, ms₂, metadata₂, hj₁, hj₂, hm₁, hm₂, hms, hmetadata⟩ :=
      h₁.exists_pods h₂
    have hsame := finalPod_congr hcreated uid₁ uid₂
    rw [hj₁, hj₂]
    refine congrArg some (Object.unversioned_eq_of_members hm₁ hm₂ hms fun k hk => ?_)
    rcases hmetadata k hk (by rw [hsame]) with h | ⟨h, h'⟩
    · exact h
    · rw [h, h', hsame]
  · have hrecord₁ := h₁.record
    have hrecord₂ := h₂.record
    rw [ha] at hrecord₁ hrecord₂
    obtain ⟨j₁, -, hj₁, -, hsame₁, -⟩ := hrecord₁
    obtain ⟨j₂, -, hj₂, -, hsame₂, -⟩ := hrecord₂
    have hrevision : C.revision a uid₁ = C.revision a uid₂ := by
      unfold revision
      cases hexisting : C.existing with
      | none => cases ha.symm.trans (hcreated hexisting)
      | some b => rfl
    rw [hj₁, hj₂]
    exact congrArg some (hsame₁.trans (hrevision ▸ hsame₂.symm))

/-- A course has one end, versions and uids aside. -/
theorem unassigned_eq (h₁ : C.Reached uid₁ ((C.finalPod uid₁).under version₁) o₁)
    (h₂ : C.Reached uid₂ ((C.finalPod uid₂).under version₂) o₂) :
    o₁.unassigned = o₂.unassigned := by
  -- Without a new record no uid is assigned, and nothing but the versions differs.
  by_cases hcreated : C.existing = none → C.plan.record = none
  · rw [Objects.unassigned_unversioned, Objects.unassigned_unversioned,
      h₁.unversioned_eq h₂ hcreated]
  · obtain ⟨hexisting, -⟩ := Classical.not_imp.1 hcreated
    refine h₁.map_eq h₂ ?_ fun a ha => ?_
    · obtain ⟨j₁, j₂, ms₁, metadata₁, ms₂, metadata₂, hj₁, hj₂, hm₁, hm₂, hms, hmetadata⟩ :=
        h₁.exists_pods h₂
      rw [hj₁, hj₂]
      refine congrArg some (Pod.unassigned_eq_of_members hm₁ hm₂ hms (fun k hk hk' => ?_) ?_)
      · have hfinal₁ := find?_finalPod_of_ne C uid₁ hk'
        have hfinal₂ := find?_finalPod_of_ne C uid₂ hk'
        rcases hmetadata k hk (by rw [hfinal₁, hfinal₂]) with h | ⟨h, h'⟩
        · exact h
        · rw [h, h', hfinal₁, hfinal₂]
      · have howner :
            (C.plan.owner? (C.stored uid₁) = none ↔ C.plan.owner? (C.stored uid₂) = none) := by
          rw [owner?_created hexisting, owner?_created hexisting, Option.map_eq_none_iff,
            Option.map_eq_none_iff]
        have hiff := (find?_ownerReferences_finalPod_eq_iff C uid₁).trans
          (howner.trans (find?_ownerReferences_finalPod_eq_iff C uid₂).symm)
        rcases hmetadata "ownerReferences" (by decide) hiff with h | ⟨h, h'⟩
        · rw [h]
        · rw [h, h', withoutUids_finalPod hexisting uid₁ uid₂]
    · have hrecord₁ := h₁.record
      have hrecord₂ := h₂.record
      rw [ha] at hrecord₁ hrecord₂
      obtain ⟨j₁, -, hj₁, -, hsame₁, -⟩ := hrecord₁
      obtain ⟨j₂, -, hj₂, -, hsame₂, -⟩ := hrecord₂
      rw [revision, hexisting] at hsame₁ hsame₂
      have hcreated₁ : Application.unassigned j₁ = Application.unassigned a.toJson :=
        (congrArg (amend [("uid", none)]) hsame₁).trans (a.unassigned_withMetadata uid₁)
      have hcreated₂ : Application.unassigned j₂ = Application.unassigned a.toJson :=
        (congrArg (amend [("uid", none)]) hsame₂).trans (a.unassigned_withMetadata uid₂)
      rw [hj₁, hj₂]
      exact congrArg some (hcreated₁.trans hcreated₂.symm)

end Reached

end Course

/-! ## Retries -/

namespace Course

variable {sources : Sources} {C : Course sources.info? runningRequeue s.objects ns name}

/-- A course is taken to its end if no request fails. -/
theorem exists_run {info : Pod → String → Option Ledger → Option (Except Info.Error Info)}
    {C : Course info runningRequeue s.objects ns name} (hS : S.Serves) (hinfo : S.info = info)
    (hreadable : C.Readable) :
    ∃ s₁ uid version,
      S.run (reconcile runningRequeue ns name) s = (.done (.ok C.plan.outcome), s₁) ∧
      C.Reached uid ((C.finalPod uid).under version) s₁.objects := by
  obtain ⟨t, -, hrun⟩ := Server.run_reconcile_of_course hS hinfo C
  obtain ⟨outcome, s₁, hdone⟩ := exists_run_carriedOut (s := s.hear t) (C := C) hS hreadable
  obtain ⟨rfl, uid, version, hreached⟩ :=
    (ensures_carriedOut (s := s.hear t) (C := C) hreadable).ok _ _ hdone
  exact ⟨s₁, uid, version, hrun.trans hdone, hreached⟩

/-- From wherever a course has come to, it is taken to its end. -/
theorem exists_run_of_progress (hroom : sources.LeavesRoom) (hS : S.Serves)
    (hinfo : S.info = sources.info?) (hreadable : C.Readable) {s' : Site}
    (hprogress : C.Progress s'.objects) :
    ∃ s₁ uid version,
      S.run (reconcile runningRequeue ns name) s' = (.done (.ok C.plan.outcome), s₁) ∧
      C.Reached uid ((C.finalPod uid).under version) s₁.objects := by
  rcases hprogress with hsame | ⟨uid, pod', version, hpod', hreached⟩
  · obtain ⟨o, said⟩ := s'
    obtain rfl : o = s.objects := hsame
    exact exists_run (s := ⟨s.objects, said⟩) (C := C) hS hinfo hreadable
  · obtain ⟨C₁, hresumes⟩ := exists_resumes hroom hpod' hreached
    obtain ⟨s₁, uid', version', hrun, hreached'⟩ := exists_run hS hinfo hresumes.readable
    refine ⟨s₁, uid, version', hrun.trans ?_, hresumes.reached hpod' hreached hreached'⟩
    rw [hresumes.plan_eq]

end Course

/-- A reconcile that nothing hinders, after one that may have failed anywhere, comes to the same
outcome as if nothing had failed, and so does what is stored, versions and uids aside; uids only
count where a record is created. -/
theorem retry_converges {sources : Sources} (hroom : sources.LeavesRoom) (ho : s.objects.Sound)
    {j : Json} {pod : Pod} {applicationId : String} {role : Pod.Role} {outcome : Outcome}
    (hstored : s.objects.pods (ns, name) = some j) (hread : Pod.ofJson? j = some pod)
    (hmember : pod.member? = some (applicationId, role))
    (hheld : pod.isTracked = true ∨ pod.isDeleting = true)
    (hinfo : S.info = sources.info?)
    (hrun : S.run (reconcile runningRequeue ns name) s = (.done (.ok outcome), s₁))
    (hinfoF : F.info = sources.info?) (hinfo' : S'.info = sources.info?) (hS' : S'.Serves) :
    ∃ s₂, S'.run (reconcile runningRequeue ns name) (F.run (reconcile runningRequeue ns name) s).2 =
        (.done (.ok outcome), s₂) ∧
      s₂.objects.unassigned = s₁.objects.unassigned ∧
      ((s.objects.records (ns, applicationId) = none →
          s₁.objects.records (ns, applicationId) = none) →
        s₂.objects.unversioned = s₁.objects.unversioned) := by
  obtain ⟨j', hpod⟩ := ho.filed.hasPod (Server.sought_eq_ok_some_iff.2 ⟨j, hstored, hread⟩)
  have hheld' : (!pod.isDeleting && !pod.isTracked) = false := by
    rcases hheld with h | h <;> simp [h]
  rcases Server.stops_or_course hinfo ho hpod hmember hheld' with
    ⟨r, t, -, hstops, hr⟩ | ⟨C, t, -, hplan⟩
  · cases hstops.symm.trans hrun
    exact absurd rfl (hr outcome)
  replace hrun := hplan.symm.trans hrun
  have hreadable := Course.readable_of_run (s := s.hear t) (C := C) hrun
  obtain ⟨rfl, uid₁, version₁, hreached₁⟩ :=
    (Course.ensures_carriedOut (s := s.hear t) (C := C) hreadable).ok _ _ hrun
  -- The failing run is one of the same course: what is stored decides the course, and nothing else.
  have hprogress : C.Progress (F.run (reconcile runningRequeue ns name) s).2.objects := by
    rcases Server.stops_or_course hinfoF ho hpod hmember hheld' with
      ⟨r, t', -, hstops, -⟩ | ⟨CF, t', -, hplanF⟩
    · rw [hstops]
      exact .inl rfl
    · rw [hplanF, CF.unique C]
      exact (Course.ensures_carriedOut (s := s.hear t') (C := C) hreadable).any
  obtain ⟨s₂, uid₂, version₂, hagain, hreached₂⟩ :=
    Course.exists_run_of_progress hroom hS' hinfo' hreadable hprogress
  refine ⟨s₂, hagain, hreached₂.unassigned_eq hreached₁, fun hcreated =>
    hreached₂.unversioned_eq hreached₁ fun hexisting => ?_⟩
  obtain ⟨-, rfl⟩ := hpod.unique C.hasPod
  cases hmember.symm.trans C.member
  have hnone : s.objects.records (ns, C.applicationId) = none := by
    have hholds := C.holds
    rwa [hexisting] at hholds
  cases ha : C.plan.record with
  | none => rfl
  | some a =>
    have hrecord := hreached₁.record
    rw [ha] at hrecord
    obtain ⟨_, _, hsome, -⟩ := hrecord
    cases (hcreated hnone).symm.trans hsome

/-- A driver is given its owner, but the answer is lost; it is let go all the same. -/
theorem retry_converges_leaving :
    let S := Server.serving Sources.historical.info?
    let F : Server := { S with fate := fun n => if n = 4 then .lost .undecodable else .served }
    outcome? (F.run (reconcile .ten "spark" "driver") ⟨.leaving, []⟩).1 = none ∧
    ∃ s₁ s₂, S.run (reconcile .ten "spark" "driver") ⟨.leaving, []⟩ = (.done (.ok .noRequeue), s₁) ∧
      S.run (reconcile .ten "spark" "driver")
          (F.run (reconcile .ten "spark" "driver") ⟨.leaving, []⟩).2 =
        (.done (.ok .noRequeue), s₂) ∧
      s₂.objects.unassigned = s₁.objects.unassigned := by
  intro S F
  have houtcome : outcome? (S.run (reconcile .ten "spark" "driver") ⟨.leaving, []⟩).1 =
      some .noRequeue := by decide +kernel
  have hmember : leavingDriver.member? = some ("app", .driver) := by decide +kernel
  have hstored : Objects.leaving.pods ("spark", "driver") = some leavingDriver.toJson := by
    simp [Objects.leaving]
  obtain ⟨s₁, hrun⟩ := exists_of_outcome? houtcome
  obtain ⟨s₂, hagain, hsame, -⟩ : ∃ s₂, S.run (reconcile .ten "spark" "driver")
      (F.run (reconcile .ten "spark" "driver") ⟨.leaving, []⟩).2 = (.done (.ok .noRequeue), s₂) ∧
      s₂.objects.unassigned = s₁.objects.unassigned ∧ _ :=
    retry_converges (s := ⟨.leaving, []⟩) Sources.leavesRoom_historical Objects.sound_leaving
      hstored (Pod.faithful.read_write leavingDriver) hmember (.inr rfl) rfl hrun rfl rfl
      fun _ => rfl
  exact ⟨by decide +kernel, s₁, s₂, hrun, hagain, hsame⟩

end Tracker

end SparkLedger

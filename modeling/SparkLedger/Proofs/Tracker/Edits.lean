import SparkLedger.Proofs.Tracker.Course

/-!
# Edits of a pod

A reconcile changes a pod in three ways, and each of them is the edit of one member of the metadata.
Everything else in the document of the pod stays as it is, whatever the document has besides.

* `Pod.Surgery`: the three ways. `Surgery.foreignFinalizers_eq`: none of them touches the finalizers
  of others.
* `Surgery.merge_eq_amend`, `Surgery.ofJson?_amend`: what the patch makes of the document.
* `lastPod?`: the pod as a reconcile has seen it last. `PodEdit.surgery`, `PodEdit.lastPod?_eq`:
  every change of a pod is one of the three, and is made from the pod that was seen last.
-/

namespace SparkLedger

namespace Pod

open Object (HasMetadata Metadata OwnerReference amend conditionalPatch?)

/-- The finalizers of a pod other than the one that tracks it. -/
def foreignFinalizers (p : Pod) : List String :=
  (p.metadata.finalizers.getD []).filter (· ≠ trackingFinalizer)

/-- What a reconcile may do to a pod, and which member of the metadata it changes. -/
inductive Surgery (pod : Pod) : String → Pod → Prop where
  /-- The tracking finalizer is put behind the others. -/
  | hold (hlive : pod.isDeleting = false)
      (hfree : trackingFinalizer ∉ pod.metadata.finalizers.getD []) :
    Surgery pod "finalizers" { pod with
      metadata.finalizers := some (pod.metadata.finalizers.getD [] ++ [trackingFinalizer]) }
  /-- The tracking finalizer is taken away, however often it is there. -/
  | release (hdeleting : pod.isDeleting = true)
      (htracked : trackingFinalizer ∈ pod.metadata.finalizers.getD []) :
    Surgery pod "finalizers" { pod with
      metadata.finalizers :=
        if pod.foreignFinalizers.isEmpty then none else some pod.foreignFinalizers }
  /-- A pod that nobody owns is given an owner. -/
  | own (hfree : pod.metadata.ownerReferences.getD [] = []) (reference : OwnerReference) :
    Surgery pod "ownerReferences" { pod with metadata.ownerReferences := some [reference] }

namespace Surgery

variable {pod pod' : Pod} {key : String}

/-- The finalizers of others stay as they are, in their order and as often as they are there. -/
theorem foreignFinalizers_eq (h : pod.Surgery key pod') :
    pod'.foreignFinalizers = pod.foreignFinalizers := by
  cases h with
  | hold => simp [foreignFinalizers]
  | release =>
    have hagain : pod.foreignFinalizers.filter (· ≠ trackingFinalizer) = pod.foreignFinalizers :=
      List.filter_filter.trans (by simp [foreignFinalizers])
    rw [foreignFinalizers]
    split
    · rename_i hnone
      rw [List.isEmpty_iff.1 hnone]
      rfl
    · exact hagain
  | own => rfl

theorem change (h : pod.Surgery key pod') : Change pod pod' := by
  cases h with
  | hold => exact .of_finalizers pod _
  | release => exact .of_finalizers pod _
  | own _ reference => exact change_owned pod (some reference)

theorem ne_version (h : pod.Surgery key pod') : key ≠ "resourceVersion" := by
  cases h <;> decide

theorem find?_of_ne (h : pod.Surgery key pod') {k : String} (hk : k ≠ key) :
    Assoc.find? k pod'.metadata.toJson.members = Assoc.find? k pod.metadata.toJson.members := by
  cases h with
  | hold => exact Metadata.find?_finalizers_of_ne _ _ hk
  | release => exact Metadata.find?_finalizers_of_ne _ _ hk
  | own => exact Metadata.find?_ownerReferences_of_ne _ _ hk

variable {j p : Json} {ms metadata : List (String × Json)}

/-- The patch, merged into the document that the pod was read from, changes one member. -/
theorem merge_eq_amend (h : pod.Surgery key pod') (hmeta : HasMetadata j ms metadata)
    (hpod : Pod.ofJson? j = some pod) (hp : conditionalPatch? pod pod' = some p) :
    p.merge j = amend [(key, Assoc.find? key pod'.metadata.toJson.members)] j :=
  Pod.merge_eq_amend hmeta hpod h.change hp h.ne_version fun _ => h.find?_of_ne

/-- The document reads as the changed pod then. -/
theorem ofJson?_amend (h : pod.Surgery key pod') (hmeta : HasMetadata j ms metadata)
    (hpod : Pod.ofJson? j = some pod) :
    Pod.ofJson? (amend [(key, Assoc.find? key pod'.metadata.toJson.members)] j) = some pod' := by
  have hmeta' := hmeta.amend [(key, Assoc.find? key pod'.metadata.toJson.members)]
  have hread := ofJson?_metadata hmeta hpod
  rw [hmeta.eq_obj] at hpod
  obtain ⟨hkind, -, hstatus⟩ := (ofJson?_obj_eq_some_iff hmeta.ascending.distinct).1 hpod
  have hothers (k : String) (hk : "metadata" ≠ k) :
      Assoc.find? k (Assoc.insert "metadata" (.obj (Object.setMembers
        [(key, Assoc.find? key pod'.metadata.toJson.members)] metadata)) ms) =
        Assoc.find? k ms := by
    rw [Assoc.find?_insert, if_neg hk]
  rw [hmeta'.eq_obj, ofJson?_obj_eq_some_iff hmeta'.ascending.distinct,
    hothers "apiVersion" (by decide), hothers "kind" (by decide), hothers "status" (by decide),
    hmeta'.find?_metadata]
  refine ⟨hkind, ?_, hstatus.trans (congrArg some h.change.status_eq.symm)⟩
  have hwritten := Metadata.ofJson?_setMember hmeta.ascending_metadata hread fun k => h.find?_of_ne
  simp [Json.nullably, Json.asNullable?, Object.setMembers, hwritten]

end Surgery

end Pod

namespace Tracker

open Dialogue (Transcript Exchange)

/-! ## The pod that was seen last -/

/-- The pod as it was answered last. -/
def lastPod? (t : Transcript Tracking) : Option Pod := (t.filterMap podOf?).getLast?

theorem lastPod?_append (t t' : Transcript Tracking) :
    lastPod? (t ++ t') = (lastPod? t').or (lastPod? t) := by
  rw [lastPod?, List.filterMap_append, List.getLast?_append]
  rfl

theorem lastPod?_concat (t : Transcript Tracking) (e : Exchange Tracking) :
    lastPod? (t ++ [e]) = (podOf? e).or (lastPod? t) := by
  rw [lastPod?_append]
  cases h : podOf? e <;> simp [lastPod?, h]

theorem lastPod?_cons (e : Exchange Tracking) (t : Transcript Tracking) :
    lastPod? (e :: t) = (lastPod? t).or (podOf? e) := by
  rw [← List.singleton_append, lastPod?_append]
  cases h : podOf? e <;> simp [lastPod?, h]

variable {t : Transcript Tracking} {runningRequeue : Seconds} {ns name applicationId : String}
  {pod pod' old new : Pod} {existing : Option Application}

theorem lastPod?_opening :
    lastPod? (opening ns name pod applicationId existing) = some pod := rfl

theorem lastPod?_of_writes {application a : Application}
    (h : (writeApplication existing application).run.Ends t (.ok a)) : lastPod? t = none := by
  rcases ends_writeApplication_ok h with ⟨-, -, rfl⟩ | ⟨e, place, rfl, -, hwrites⟩
  · rfl
  · cases hwrites <;> rfl

/-- Until its record is written, a driver is seen as it was read. -/
theorem lastPod?_of_recorded {start application a : Application} {r : Except Info.Error Info}
    (h : (writeApplication existing application).run.Ends t (.ok a)) :
    lastPod? (opening ns name pod applicationId existing ++
      fetching pod applicationId start r :: t) = some pod := by
  rw [lastPod?_append, lastPod?_cons, lastPod?_of_writes h]
  rfl

/-- The answer to a change of a pod is the pod that is seen then. -/
theorem lastPod?_of_patches (h : (patchPod old new).Ends t (.ok pod')) :
    (lastPod? t).or (some old) = some pod' := by
  obtain ⟨ns, name, -, ⟨-, rfl, rfl⟩ | ⟨p, -, rfl⟩⟩ := ends_patchPod_ok.1 h <;> rfl

/-- The pod that a reconcile goes on with after it was recorded is the one that was seen last. -/
theorem lastPod?_of_track {role : Pod.Role} {outcome : Outcome}
    (h : (track runningRequeue pod applicationId existing role).run.Ends t
      (.ok (outcome, pod'))) : (lastPod? t).or (some pod) = some pod' := by
  rcases ends_track_ok h with ⟨-, rfl, h⟩ | ⟨-, h⟩
  · obtain ⟨_, _, _, _, -, -, -, ⟨-, rfl⟩ | ⟨p, a, -, rfl⟩⟩ := ends_trackExecutor_ok h <;> rfl
  · obtain ⟨start, heritage, r, spec, t₁, t₂, stored, rfl, -, hwrite, hown⟩ := ends_trackDriver_ok h
    have hlast : lastPod? (fetching pod applicationId start r :: (t₁ ++ t₂)) = lastPod? t₂ := by
      rw [lastPod?_cons, lastPod?_append, lastPod?_of_writes hwrite, Option.or_none]
      exact Option.or_none
    rw [hlast]
    rcases ends_ownDriver_ok hown with ⟨rfl, rfl, -⟩ | ⟨_, -, -, -, hpatch⟩
    · rfl
    · exact lastPod?_of_patches hpatch

namespace PodEdit

/-- A change of a pod is made from the pod that was seen last. -/
theorem lastPod?_eq (h : PodEdit runningRequeue ns name t old new) : lastPod? t = some old := by
  cases h with
  | hold => rfl
  | own _ _ hwrite => exact lastPod?_of_recorded hwrite
  | cascade => rfl
  | release htrack =>
    rw [lastPod?_append, lastPod?_opening]
    exact lastPod?_of_track htrack

/-- A change of a pod is one of its finalizers, or gives a driver its owner. -/
theorem finalizers_or_owner (h : PodEdit runningRequeue ns name t old new) :
    old.Surgery "finalizers" new ∨
      ∃ applicationId existing start heritage r spec t' stored reference,
        t = opening ns name old applicationId existing ++
          fetching old applicationId start r :: t' ∧
        old.member? = some (applicationId, .driver) ∧
        Recording old applicationId existing start heritage r spec ∧
        (writeApplication existing { start with spec }).run.Ends t' (.ok stored) ∧
        heritage.allowsOwnership = true ∧ stored.ownerReference? = some reference ∧
        old.metadata.ownerReferences.getD [] = [] ∧
        new = { old with metadata.ownerReferences := some [reference] } := by
  have hreleased (pod : Pod) (hdeleting : pod.isDeleting = true)
      (htracked : pod.isTracked = true) : pod.Surgery "finalizers" pod.released :=
    .release hdeleting (List.contains_iff_mem.1 htracked)
  cases h with
  | hold hlive hfree =>
    refine .inl (.hold hlive fun hmem => ?_)
    rw [Pod.isTracked, List.contains_iff_mem.2 hmem] at hfree
    cases hfree
  | own hmember hrecording hwrite hallows hfree hreference =>
    rw [hasOwners, Bool.not_eq_false', List.isEmpty_iff] at hfree
    exact .inr ⟨_, _, _, _, _, _, _, _, _, rfl, hmember, hrecording, hwrite, hallows, hreference,
      hfree, rfl⟩
  | cascade hdeleting htracked => exact .inl (hreleased _ hdeleting htracked)
  | release _ hdeleting htracked => exact .inl (hreleased _ hdeleting htracked)

theorem surgery (h : PodEdit runningRequeue ns name t old new) :
    ∃ key, old.Surgery key new := by
  rcases h.finalizers_or_owner with
    h | ⟨_, _, _, _, _, _, _, _, reference, -, -, -, -, -, -, hfree, rfl⟩
  · exact ⟨_, h⟩
  · exact ⟨_, .own hfree reference⟩

theorem change (h : PodEdit runningRequeue ns name t old new) : Pod.Change old new := by
  obtain ⟨_, hsurgery⟩ := h.surgery
  exact hsurgery.change

end PodEdit

end Tracker

end SparkLedger

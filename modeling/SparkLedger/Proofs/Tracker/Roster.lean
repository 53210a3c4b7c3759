import Mathlib.Data.List.Nodup
import SparkLedger.Proofs.Tracker.Executors
import SparkLedger.Proofs.Tracker.Discipline
import SparkLedger.Proofs.Tracker.Revision

/-!
# The executors of a record

Whatever the reconciles over a record do beside each other, its executors are only added to.

* `World.Coherent.executorIds_step`: a step keeps the executors, or puts one behind the others.
* `Setup.Tracked`: a reconcile has recorded an executor. `Coherent.mem_of_tracked_step`: then it
  is listed.
* `executors_kept`: what holds of the executors and of the creations at any time.
-/

namespace SparkLedger

namespace Application

/-- The uids of the executors, in their order. -/
def executorIds (a : Application) : List String := a.spec.executors.map (·.uid)

theorem mem_executorIds_withExecutor {uid : String} {pod : Pod}
    (huid : pod.metadata.uid = some uid) (a : Application) :
    uid ∈ (a.withExecutor uid pod).executorIds := by
  rw [executorIds, withExecutor, Spec.map_uid_putExecutor huid]
  split
  · assumption
  · exact List.mem_append_right _ List.mem_cons_self

end Application

namespace Tracker

open Dialogue (Transcript Exchange)

/-- The uids of the executors of the record, none before it is there. -/
def World.executorIds (w : World) : List String := w.application?.elim [] Application.executorIds

/-- A reconcile has recorded the executor with this uid: it has read the record, and what an
executor's reconcile does then has succeeded. -/
def Setup.Tracked (S : Setup) (w : World) (i : Nat) (uid : String) : Prop :=
  ∃ (pod : Pod) (existing : Option Application) (t : Transcript Tracking) (outcome : Outcome),
    pod.metadata.uid = some uid ∧ (S.pods i).1 = S.record.1 ∧
    opening S.record.1 (S.pods i).2 pod S.record.2 existing ++ t <+: w.said i ∧
    (trackExecutor pod S.record.2 existing).run.Ends t (.ok outcome)

/-! ## Steps -/

section

variable {ns name : String} {t : Transcript Tracking} {existing : Option Application}
  {new : Application}

/-- Who revises a record keeps its executors, or puts one behind them. -/
theorem Revised.executorIds (h : Revised ns name t existing new) :
    new.executorIds = existing.elim [] Application.executorIds ∨
      ∃ uid ∉ existing.elim [] Application.executorIds,
        new.executorIds = existing.elim [] Application.executorIds ++ [uid] := by
  cases h with
  | driver hstart hrecorded =>
    left
    rw [Application.executorIds, hrecorded.executors_eq, hstart]
    cases existing <;> rfl
  | @executor pod _ uid stored huid =>
    have hput := Application.Spec.map_uid_putExecutor huid stored.spec.executors
    by_cases hmem : uid ∈ stored.executorIds
    · exact .inl (hput.trans (if_pos hmem))
    · exact .inr ⟨uid, hmem, hput.trans (if_neg hmem)⟩

/-- Only executors revise a record right after they have read it. -/
theorem Revised.of_opening {pod : Pod} {applicationId uid : String} {stored : Application}
    (h : Revised ns name (opening ns name pod applicationId (some stored)) existing new)
    (huid : pod.metadata.uid = some uid) :
    existing = some stored ∧ new = stored.withExecutor uid pod := by
  generalize ht : opening ns name pod applicationId (some stored) = t at h
  cases h with
  | driver => cases ht
  | executor huid' =>
    cases ht
    cases huid.symm.trans huid'
    exact ⟨rfl, rfl⟩

end

namespace World.Coherent

variable {S : Setup} {w w' : World} {i : Nat}

/-- A step keeps the executors, or puts one behind them. -/
theorem executorIds_step (h : w.Coherent S.record) (hstep : S.Step w w') :
    w'.executorIds = w.executorIds ∨
      ∃ uid ∉ w.executorIds, w'.executorIds = w.executorIds ++ [uid] := by
  cases hstep with
  | heard => exact .inl rfl
  | fetched => exact .inl rfl
  | wrote hasks hwrite =>
    obtain ⟨new, current, version, hrevised, hspec, -, -, -, rfl⟩ := h.revised hasks hwrite
    have hids : current.executorIds = new.executorIds := by rw [Application.executorIds, hspec]; rfl
    rw [executorIds, application?_write, Option.elim_some, hids]
    exact hrevised.executorIds

theorem executorIds_prefix_step (h : w.Coherent S.record) (hstep : S.Step w w') :
    w.executorIds <+: w'.executorIds := by
  rcases h.executorIds_step hstep with heq | ⟨uid, -, heq⟩
  · exact heq ▸ List.prefix_rfl
  · exact heq ▸ List.prefix_append _ _

theorem nodup_step (h : w.Coherent S.record) (hnodup : w.executorIds.Nodup)
    (hstep : S.Step w w') : w'.executorIds.Nodup := by
  rcases h.executorIds_step hstep with heq | ⟨uid, hnew, heq⟩ <;> rw [heq]
  · exact hnodup
  · rw [← List.concat_eq_append]
    exact List.Nodup.concat hnew hnodup

/-- The executors of all that was read of the record are still there. -/
def Kept (record : String × String) (w : World) : Prop :=
  ∀ i a, readOf record.1 record.2 a ∈ w.said i → a.executorIds <+: w.executorIds

theorem kept_step (h : w.Coherent S.record) (hkept : Kept S.record w) (hstep : S.Step w w') :
    Kept S.record w' := by
  intro k b hb
  have hprefix := h.executorIds_prefix_step hstep
  have hold : readOf S.record.1 S.record.2 b ∈ w.said k → b.executorIds <+: w'.executorIds :=
    fun hb => (hkept k b hb).trans hprefix
  cases hstep with
  | heard hasks ha =>
    rcases mem_said_tell.1 hb with hb | ⟨-, hb⟩
    · exact hold hb
    · cases hb
      rcases ha.read_cases with ⟨-, hget⟩ | ⟨hother, -⟩ | ⟨_, herror⟩
      · refine .trans ?_ hprefix
        rw [executorIds, (h.of_get hget).1]
        exact List.prefix_rfl
      · exact absurd rfl hother
      · cases herror
  | fetched =>
    rcases mem_said_tell.1 hb with hb | ⟨-, hb⟩
    · exact hold hb
    · cases hb
  | wrote hasks hwrite =>
    rcases mem_said_tell.1 hb with hb | ⟨-, hb⟩
    · exact hold hb
    · cases hb
      cases hwrite

theorem prefix_said_tell {k : Nat} {e : Exchange Tracking} {t : Transcript Tracking} :
    t <+: (w.tell k e).said i ↔ t <+: w.said i ∨ (i = k ∧ t = w.said i ++ [e]) := by
  by_cases hi : i = k
  · subst hi
    rw [said_tell_self, List.prefix_concat_iff, or_comm]
    simp
  · simp [said_tell_of_ne hi, hi]

/-- An executor is listed once the record is changed by what its reconcile makes of it. -/
theorem mem_of_write {q : Question} {a : q.Answer} {slot : Slot} {pod : Pod}
    {applicationId uid : String} {stored : Application} (h : w.Coherent S.record)
    (hasks : (S.work i).Asks (w.said i) q) (hwrite : w.slot.Writes S.record q a slot)
    (hsaid : w.said i = opening (S.pods i).1 (S.pods i).2 pod applicationId (some stored))
    (huid : pod.metadata.uid = some uid) : uid ∈ (w.write i q a slot).executorIds := by
  obtain ⟨new, current, version, hrevised, hspec, -, -, -, rfl⟩ := h.revised hasks hwrite
  rw [hsaid] at hrevised
  obtain ⟨-, rfl⟩ := hrevised.of_opening huid
  rw [executorIds, application?_write, Option.elim_some, Application.executorIds, hspec]
  exact Application.mem_executorIds_withExecutor huid stored

/-- What a reconcile has recorded is listed once the step is done. -/
theorem mem_of_tracked_step {uid : String} (h : w.Coherent S.record) (hkept : Kept S.record w)
    (hlisted : S.Tracked w i uid → uid ∈ w.executorIds) (hstep : S.Step w w')
    (htracked : S.Tracked w' i uid) : uid ∈ w'.executorIds := by
  obtain ⟨pod, existing, t, outcome, huid, hns, hsaid, hends⟩ := htracked
  obtain ⟨uid', stored, ns, name, huid', rfl, hplace, hdone⟩ := ends_trackExecutor_ok hends
  cases huid.symm.trans huid'
  have hread : readOf S.record.1 S.record.2 stored ∈ w'.said i := by
    refine hsaid.subset (List.mem_append_left _ (List.mem_cons_of_mem _ ?_))
    exact List.mem_cons_self
  rcases hdone with ⟨hsame, rfl⟩ | ⟨p, a, hp, rfl⟩
  · -- Nothing is sent where the executor is listed already, however old that read is.
    refine (h.kept_step hkept hstep i stored hread).subset ?_
    rw [← hsame]
    exact Application.mem_executorIds_withExecutor huid stored
  · have hplace' := (h.step hstep).named i S.record.1 S.record.2 stored hread
    cases hplace.symm.trans hplace'
    have hold (hsaid : _ <+: w.said i) : uid ∈ w'.executorIds :=
      (h.executorIds_prefix_step hstep).subset
        (hlisted ⟨pod, some stored, _, outcome, huid, hns, hsaid, hends⟩)
    cases hstep with
    | heard hasks ha =>
      rcases prefix_said_tell.1 hsaid with hbefore | ⟨rfl, hnow⟩
      · exact hold hbefore
      · obtain ⟨-, hlast⟩ := List.append_singleton_inj.1 hnow
        cases hlast
        obtain ⟨_, herror⟩ := ha.eq_failed rfl rfl
        cases herror
    | fetched =>
      rcases prefix_said_tell.1 hsaid with hbefore | ⟨rfl, hnow⟩
      · exact hold hbefore
      · obtain ⟨-, hlast⟩ := List.append_singleton_inj.1 hnow
        cases hlast
    | wrote hasks hwrite =>
      rcases prefix_said_tell.1 hsaid with hbefore | ⟨rfl, hnow⟩
      · exact hold hbefore
      · obtain ⟨hopening, -⟩ := List.append_singleton_inj.1 hnow
        rw [← hns] at hopening
        exact h.mem_of_write hasks hwrite hopening.symm huid

end World.Coherent

/-! ## Creations -/

/-- Whether a question creates a record. -/
def Question.isCreation : Question → Bool
  | .createApplication .. => true
  | _ => false

namespace World

/-- How often the record was created. -/
def creations (w : World) : Nat := w.writes.countP (·.2.isCreation)

/-- A creation of the record that took no effect has failed, and its reconcile with it. -/
def Settled (S : Setup) (w : World) : Prop :=
  ∀ (i : Nat) (ns : String) (new : Application) (a : Except Kube.Error Application),
    (⟨.createApplication ns new, a⟩ : Exchange Tracking) ∈ w.said i →
      new.metadata.identity? = some S.record → (i, .createApplication ns new) ∉ w.writes →
        ∃ error, a = .error error ∧
          (S.work i).Ends (w.said i) (.error (.store (.ofKube error)))

variable {S : Setup} {w w' : World}

theorem creations_write (w : World) (i : Nat) (q : Question) (a : q.Answer) (slot : Slot) :
    (w.write i q a slot).creations = w.creations + q.isCreation.toNat := by
  refine List.countP_append.trans (congrArg (w.creations + ·) ?_)
  rw [List.countP_singleton]
  cases q.isCreation <;> rfl

/-- The record is there as often as it was created. -/
theorem creations_step (hstep : S.Step w w') :
    w'.creations + w.slot.stored.isSome.toNat = w.creations + w'.slot.stored.isSome.toNat := by
  cases hstep with
  | heard => rfl
  | fetched => rfl
  | wrote hasks hwrite =>
    rw [creations_write]
    cases hwrite with
    | create _ habsent =>
      rw [habsent]
      rfl
    | patch _ hstored =>
      rw [hstored]
      rfl

/-- A reconcile that has ended exchanges nothing more. -/
theorem said_tell_of_ends {i k : Nat} {q : Question} {e : Exchange Tracking}
    {r : Except Error Outcome} (hends : (S.work k).Ends (w.said k) r)
    (hasks : (S.work i).Asks (w.said i) q) : (w.tell i e).said k = w.said k := by
  by_cases hk : k = i
  · subst hk
    rw [← List.append_nil (w.said k)] at hasks
    exact absurd hasks (Dialogue.not_asks_of_ends hends)
  · exact said_tell_of_ne hk

private theorem Settled.of_before (h : w.Settled S) {i k : Nat} {q : Question}
    {e : Exchange Tracking} {ns : String} {new : Application} {a : Except Kube.Error Application}
    (hasks : (S.work i).Asks (w.said i) q)
    (hmem : (⟨.createApplication ns new, a⟩ : Exchange Tracking) ∈ w.said k)
    (hrecord : new.metadata.identity? = some S.record)
    (hnot : (k, .createApplication ns new) ∉ w.writes) :
    ∃ error, a = .error error ∧
      (S.work k).Ends ((w.tell i e).said k) (.error (.store (.ofKube error))) := by
  obtain ⟨error, rfl, hends⟩ := h k ns new a hmem hrecord hnot
  rw [← said_tell_of_ends hends hasks] at hends
  exact ⟨error, rfl, hends⟩

theorem settled_step (h : w.Settled S) (hstep : S.Step w w') : w'.Settled S := by
  intro k ns new a hmem hrecord hnot
  cases hstep with
  | heard hasks ha =>
    rcases mem_said_tell.1 hmem with hbefore | ⟨rfl, hnow⟩
    · exact h.of_before hasks hbefore hrecord hnot
    · cases hnow
      obtain ⟨error, rfl⟩ := ha.eq_failed rfl hrecord
      obtain ⟨cause, hturn, hfails⟩ := obeys_reconcile.asks _ _ rfl hasks
      cases hturn.eq_store
      refine ⟨error, rfl, ?_⟩
      rw [said_tell_self]
      exact hfails error
  | fetched hasks =>
    rcases mem_said_tell.1 hmem with hbefore | ⟨rfl, hnow⟩
    · exact h.of_before hasks hbefore hrecord hnot
    · cases hnow
  | wrote hasks hwrite =>
    rcases mem_said_tell.1 hmem with hbefore | ⟨rfl, hnow⟩
    · exact h.of_before hasks hbefore hrecord fun hin => hnot (List.mem_append_left _ hin)
    · cases hnow
      exact absurd (List.mem_append_right _ List.mem_cons_self) hnot

end World

/-! ## Runs -/

open World (Settled)

variable {S : Setup} {application : Option Application} {w w' : World}

/-- What holds of the executors and the creations at any time. -/
private theorem kept_run
    (happlication : ∀ a, application = some a → a.metadata.identity? = some S.record)
    (hrun : S.Run (Setup.start application) w) :
    World.Coherent.Kept S.record w ∧
      (∀ i uid, S.Tracked w i uid → uid ∈ w.executorIds) ∧ w.Settled S ∧
      w.creations + application.isSome.toNat = w.slot.stored.isSome.toNat := by
  induction hrun with
  | refl =>
    refine ⟨(fun _ _ h => nomatch h), ?_, (fun _ _ _ _ h => nomatch h), ?_⟩
    · rintro i uid ⟨pod, existing, t, outcome, -, -, hsaid, -⟩
      have hlength := hsaid.length_le
      simp [Setup.start, opening] at hlength
    · cases application <;> rfl
  | tail hrun hstep ih =>
    obtain ⟨hkept, hlisted, hsettled, hcreations⟩ := ih
    have hcoherent := coherent_run happlication hrun
    refine ⟨hcoherent.kept_step hkept hstep, fun i uid => ?_, World.settled_step hsettled hstep, ?_⟩
    · exact hcoherent.mem_of_tracked_step hkept (hlisted i uid) hstep
    · have hstep := World.creations_step hstep
      omega

theorem executorIds_prefix_run
    (happlication : ∀ a, application = some a → a.metadata.identity? = some S.record)
    (hrun : S.Run (Setup.start application) w) (hrun' : S.Run w w') :
    w.executorIds <+: w'.executorIds := by
  induction hrun' with
  | refl => exact List.prefix_rfl
  | tail hbefore hstep ih =>
    have hcoherent := coherent_run happlication (hrun.trans hbefore)
    exact ih.trans (hcoherent.executorIds_prefix_step hstep)

theorem nodup_run
    (happlication : ∀ a, application = some a →
      a.metadata.identity? = some S.record ∧ a.executorIds.Nodup)
    (hrun : S.Run (Setup.start application) w) : w.executorIds.Nodup := by
  induction hrun with
  | refl =>
    cases application with
    | none => exact List.nodup_nil
    | some a =>
      rw [World.executorIds, World.application?_of_stored rfl]
      exact (happlication a rfl).2
  | tail hrun hstep ih =>
    have hcoherent := coherent_run (fun a ha => (happlication a ha).1) hrun
    exact hcoherent.nodup_step ih hstep

/-- No executor is lost, whatever reconciles do beside each other. -/
theorem executors_kept
    (happlication : ∀ a, application = some a →
      a.metadata.identity? = some S.record ∧ a.executorIds.Nodup)
    (hrun : S.Run (Setup.start application) w) (hrun' : S.Run w w') :
    w.slot.stored = w.application?.map Application.toJson ∧
      w.executorIds.Nodup ∧ w.executorIds <+: w'.executorIds ∧
      (∀ i uid, S.Tracked w i uid → uid ∈ w'.executorIds) ∧
      w.creations ≤ 1 ∧ (application.isSome = true → w.creations = 0) ∧
      ∀ (i : Nat) (ns : String) (new : Application) (a : Except Kube.Error Application),
        (⟨.createApplication ns new, a⟩ : Exchange Tracking) ∈ w.said i →
          new.metadata.identity? = some S.record → (i, .createApplication ns new) ∉ w.writes →
            ∃ error failure, a = .error error ∧ (S.work i).Ends (w.said i) (.error failure) ∧
              ∀ reason message, error = .api 409 reason message → failure.isConflict = true := by
  have hidentity := fun a ha => (happlication a ha).1
  obtain ⟨-, hlisted, hsettled, hcreations⟩ := kept_run hidentity hrun
  have hprefix := executorIds_prefix_run hidentity hrun hrun'
  refine ⟨(coherent_run hidentity hrun).stored_eq, nodup_run happlication hrun, hprefix, ?_, ?_, ?_,
    ?_⟩
  · exact fun i uid h => hprefix.subset (hlisted i uid h)
  · have hone := Bool.toNat_le w.slot.stored.isSome
    omega
  · intro hsome
    have hone := Bool.toNat_le w.slot.stored.isSome
    rw [hsome] at hcreations
    simp only [Bool.toNat_true] at hcreations
    omega
  · intro i ns new a hmem hrecord hnot
    obtain ⟨error, rfl, hends⟩ := hsettled i ns new a hmem hrecord hnot
    refine ⟨error, .store (.ofKube error), rfl, hends, ?_⟩
    rintro reason message rfl
    rfl

/-! An executor joins another one, and is still listed when the driver's reconcile begins. -/

section

open Setup (start pair pairPod pairRead)

/-- The record with one executor. -/
def pairRecord : Application :=
  { Application.template "spark" "app" with
    metadata.resourceVersion := some "1"
    spec.executors := [{ Pod.Snapshot.ofPod (pairPod "executor") with uid := "earlier-uid" }] }

theorem executors_kept_pair :
    ∃ w w', pair.Run (start (some pairRecord)) w ∧ pair.Run w w' ∧
      pair.Tracked w 1 "executor-uid" ∧ w.executorIds <+: w'.executorIds ∧
        "executor-uid" ∈ w'.executorIds := by
  let w₁ := (start (some pairRecord)).tell 1 (pairRead "executor")
  let w₂ := w₁.tell 1 (readOf "spark" "app" pairRecord)
  have h₁ : pair.Step (start (some pairRecord)) w₁ :=
    .heard (.inl ⟨rfl, rfl⟩) (.elsewhere nofun trivial)
  have h₂ : pair.Step w₁ w₂ := .heard (.inr ⟨_, _, rfl, .inl ⟨rfl, rfl⟩⟩) (.read rfl)
  let new := pairRecord.withExecutor "executor-uid" (pairPod "executor")
  let current := { new with metadata.resourceVersion := some "2" }
  let p := (Object.conditionalPatch? pairRecord new).get rfl
  have hp : Object.conditionalPatch? pairRecord new = some p := rfl
  have hasks : (pair.work 1).Asks (w₂.said 1) (.patchApplication "spark" "app" p) :=
    .inr ⟨_, _, rfl, .inr ⟨_, _, rfl, .inl ⟨rfl, rfl⟩⟩⟩
  have hends : (trackExecutor (pairPod "executor") "app" (some pairRecord)).run.Ends
      [⟨.patchApplication "spark" "app" p, (.ok current : Except Kube.Error Application)⟩]
      (.ok .noRequeue) := ⟨_, _, rfl, rfl, rfl⟩
  have hmerge : p.merge pairRecord.toJson = new.toJson := Object.merge_conditionalPatch? hp rfl
  have hwrite : w₂.slot.Writes pair.record (.patchApplication "spark" "app" p)
      (.ok current : Except Kube.Error Application)
      (w₂.slot.put "2" (p.merge pairRecord.toJson)) := by
    refine .patch rfl rfl (Object.metadataText?_conditionalPatch? hp rfl) (by decide)
      (.inl ⟨_, rfl, ?_⟩)
    rw [hmerge, Application.withMetadata_version, Slot.answer_toJson]
  let w₃ := w₂.write 1 (.patchApplication "spark" "app" p)
    (.ok current : Except Kube.Error Application) (w₂.slot.put "2" (p.merge pairRecord.toJson))
  let w₄ := w₃.tell 0 (pairRead "driver")
  have h₃ : pair.Step w₂ w₃ := .wrote hasks hwrite
  have h₄ : pair.Step w₃ w₄ := .heard (.inl ⟨rfl, rfl⟩) (.elsewhere nofun trivial)
  have hrun : pair.Run (start (some pairRecord)) w₃ := .tail (.tail (.single h₁) h₂) h₃
  have hstart : ∀ a, some pairRecord = some a →
      a.metadata.identity? = some pair.record ∧ a.executorIds.Nodup := by
    intro a ha
    cases ha
    exact ⟨rfl, List.nodup_singleton _⟩
  have htracked : pair.Tracked w₃ 1 "executor-uid" :=
    ⟨pairPod "executor", some pairRecord, _, .noRequeue, rfl, rfl, List.prefix_rfl, hends⟩
  obtain ⟨-, -, hprefix, hlisted, -⟩ := executors_kept hstart hrun (.single h₄)
  exact ⟨w₃, w₄, hrun, .single h₄, htracked, hprefix, hlisted 1 _ htracked⟩

end

end Tracker

end SparkLedger

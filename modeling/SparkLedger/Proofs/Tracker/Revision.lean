import SparkLedger.Proofs.Tracker.Requests
import SparkLedger.Proofs.Tracker.World

/-!
# What a step does to the record

A reconcile changes the record only from the state that it has read, although others go on
meanwhile: a patch names the version it was made from, and no version comes twice.

* `World.Coherent`: the stored record is the object of an application, and what was read of it is
  what is stored if it has the same version. `coherent_start`, `Coherent.step`: it always holds.
* `Revised`: what a reconcile makes of the record, by what it has exchanged. `Coherent.revised`: a
  write does so from the record as it is.
-/

namespace SparkLedger.Tracker

open Application (Spec)
open Dialogue (Transcript Exchange)
open Cluster (metadataText?)
open Object (conditionalPatch?)

/-! ## Coherence -/

theorem Slot.answer_toJson (a : Application) : answer a.toJson = .ok a := by
  have hread : Application.ofJson? a.toJson = some a := Application.faithful.read_write a
  rw [answer, hread]

/-- A new record is stored with its uid and its version. -/
theorem Slot.put_created (s : Slot) (uid version : String) (a : Application) :
    s.put version (Cluster.withMetadata "uid" uid a.toJson) =
      ⟨some ({ a with
        metadata.uid := some uid
        metadata.resourceVersion := some version } : Application).toJson, version :: s.given⟩ := by
  rw [put, Application.withMetadata_uid, Application.withMetadata_version]

/-- An application was read of the record. It is the stored one if it has the stored version. -/
def Slot.Seen (s : Slot) (a : Application) : Prop :=
  ∃ current : Application, s.stored = some current.toJson ∧
    (∀ version, a.metadata.resourceVersion = some version → version ∈ s.given) ∧
    (a.metadata.resourceVersion = current.metadata.resourceVersion → a = current)

/-- What is stored and what was read fit together. -/
structure World.Coherent (record : String × String) (w : World) : Prop where
  /-- The stored record is the object of an application, under its own name. -/
  stored : ∀ j, w.slot.stored = some j → ∃ a : Application, j = a.toJson ∧
    a.metadata.identity? = some record ∧
    ∀ version, a.metadata.resourceVersion = some version → version ∈ w.slot.given
  /-- Records are read under their own names. -/
  named : ∀ i ns name a, readOf ns name a ∈ w.said i → a.metadata.identity? = some (ns, name)
  /-- What was read of the record was stored once. -/
  seen : ∀ i a, readOf record.1 record.2 a ∈ w.said i → w.slot.Seen a

namespace World

variable {record : String × String} {w : World}

theorem application?_of_stored {a : Application} (h : w.slot.stored = some a.toJson) :
    w.application? = some a := by
  rw [application?, h]
  exact Application.faithful.read_write a

theorem application?_write (w : World) (i : Nat) (q : Question) (a : q.Answer) (b : Application)
    (given : List String) : (w.write i q a ⟨some b.toJson, given⟩).application? = some b :=
  application?_of_stored rfl

theorem Coherent.application?_eq (h : w.Coherent record) {j : Json}
    (hj : w.slot.stored = some j) :
    ∃ a, w.application? = some a ∧ j = a.toJson ∧ a.metadata.identity? = some record ∧
      ∀ version, a.metadata.resourceVersion = some version → version ∈ w.slot.given := by
  obtain ⟨a, rfl, hrecord, hgiven⟩ := h.stored j hj
  exact ⟨a, application?_of_stored hj, rfl, hrecord, hgiven⟩

theorem Coherent.stored_eq (h : w.Coherent record) :
    w.slot.stored = w.application?.map Application.toJson := by
  cases hj : w.slot.stored with
  | none => rw [application?, hj]; rfl
  | some j =>
    obtain ⟨a, ha, rfl, -⟩ := h.application?_eq hj
    rw [ha]
    rfl

/-- The record is stored under its own name. -/
theorem Coherent.identity?_eq (h : w.Coherent record) {a : Application}
    (ha : w.application? = some a) : a.metadata.identity? = some record := by
  have hstored : w.slot.stored = some a.toJson := by
    rw [h.stored_eq, ha]
    rfl
  obtain ⟨a', ha', -, hrecord, -⟩ := h.application?_eq hstored
  cases ha.symm.trans ha'
  exact hrecord

end World

/-! ## Revisions -/

/-- What a reconcile makes of the record that it has read, by what it has exchanged. -/
inductive Revised (ns name : String) :
    Transcript Tracking → Option Application → Application → Prop where
  | driver {pod : Pod} {applicationId ns' : String} {existing : Option Application}
      {start : Application} {r : Except Info.Error Info} {spec : Spec}
      (hstart : start = existing.getD (.template ns' applicationId))
      (hrecorded : start.spec.Recorded pod r spec) :
      Revised ns name (opening ns name pod applicationId existing ++
        [⟨.info pod applicationId start.spec.stageLedger, r⟩]) existing { start with spec }
  | executor {pod : Pod} {applicationId uid : String} {stored : Application}
      (huid : pod.metadata.uid = some uid) :
      Revised ns name (opening ns name pod applicationId (some stored)) (some stored)
        (stored.withExecutor uid pod)

section

variable {runningRequeue : Seconds} {ns name : String} {t : Transcript Tracking} {q : Question}
  {existing : Option Application} {stored new : Application}

theorem IsPatchOf.isChange {pod pod' : Pod} (h : IsPatchOf pod pod' q) : q.isChange = false := by
  cases q with
  | patchPod => rfl
  | _ => exact h.elim

/-- A reconcile changes a record once it has made something of it. -/
theorem revised_of_asks (h : (reconcile runningRequeue ns name).run.Asks t q)
    (hq : q.isChange = true) :
    ∃ existing new, Revised ns name t existing new ∧ IsWriteOf existing new q := by
  rcases asks_reconcile h with ⟨-, rfl⟩ | ⟨_, _, -, hpatch⟩ | ⟨pod, applicationId, role, -, hrest⟩
  · cases hq
  · cases hpatch.isChange.symm.trans hq
  rcases hrest with ⟨-, rfl⟩ | ⟨existing, t', rfl, ⟨-, htrack⟩ | ⟨-, htrack⟩⟩
  · cases hq
  · obtain ⟨uid, stored, _, _, p, huid, rfl, hplace, hp, rfl, rfl⟩ := asks_trackExecutor htrack
    refine ⟨some stored, _, ?_, stored, rfl, hplace, hp⟩
    rw [List.append_nil]
    exact .executor huid
  · rcases htrack with ⟨_, _, -, -, rfl⟩ | ⟨start, heritage, r, spec, rfl, hr, hwrite⟩
    · cases hq
    · obtain ⟨ns', _, -, hstart⟩ := hr.start_eq
      exact ⟨existing, _, .driver hstart hr.recorded, hwrite⟩

/-- A reconcile asks for info right after it has read the record. -/
theorem eq_opening_of_asks_info {driver : Pod} {applicationId : String} {recorded : Option Ledger}
    (h : (reconcile runningRequeue ns name).run.Asks t (.info driver applicationId recorded)) :
    ∃ existing, t = opening ns name driver applicationId existing := by
  rcases asks_reconcile h with ⟨-, hq⟩ | ⟨_, _, -, hpatch⟩ | ⟨pod, id, role, -, hrest⟩
  · cases hq
  · exact hpatch.elim
  rcases hrest with ⟨-, hq⟩ | ⟨existing, t', rfl, ⟨-, htrack⟩ | ⟨-, htrack⟩⟩
  · cases hq
  · obtain ⟨_, _, _, _, _, _, _, _, _, _, hq⟩ := asks_trackExecutor htrack
    cases hq
  · rcases htrack with ⟨_, _, -, rfl, hq⟩ | ⟨_, _, _, _, -, -, hwrite⟩
    · cases hq
      exact ⟨existing, List.append_nil _⟩
    · exact hwrite.elim

/-- The record was read under the name of the application. -/
theorem Revised.read (h : Revised ns name t (some stored) new) :
    ∃ applicationId, readOf ns applicationId stored ∈ t := by
  cases h with
  | @driver _ applicationId =>
    exact ⟨applicationId, List.mem_append_left _ (List.mem_cons_of_mem _ List.mem_cons_self)⟩
  | @executor _ applicationId =>
    exact ⟨applicationId, List.mem_cons_of_mem _ List.mem_cons_self⟩

theorem Revised.metadata_eq (h : Revised ns name t (some stored) new) :
    new.metadata = stored.metadata := by
  cases h with
  | driver hstart =>
    subst hstart
    rfl
  | executor => rfl

theorem isChange_of_mem_opening {pod : Pod} {applicationId : String} {e : Exchange Tracking}
    (h : e ∈ opening ns name pod applicationId existing) : e.question.isChange = false := by
  simp only [opening, List.mem_cons, List.not_mem_nil, or_false] at h
  rcases h with rfl | rfl <;> rfl

/-- No record was changed before. -/
theorem Revised.isChange_of_mem {e : Exchange Tracking} (h : Revised ns name t existing new)
    (he : e ∈ t) : e.question.isChange = false := by
  cases h with
  | driver =>
    rcases List.mem_append.1 he with he | he
    · exact isChange_of_mem_opening he
    · cases List.mem_singleton.1 he
      rfl
  | executor => exact isChange_of_mem_opening he

end

/-! ## Steps -/

section

variable {record : String × String} {s : Slot}

theorem Slot.Answers.read_cases {ns name : String} {x : Except Kube.Error (Option Application)}
    (h : s.Answers record (.getApplication ns name) x) :
    ((ns, name) = record ∧ x = s.get) ∨
      ((ns, name) ≠ record ∧ Question.Allows (.getApplication ns name) x) ∨
      ∃ error, x = .error error := by
  cases h with
  | read hrecord => exact .inl ⟨hrecord, rfl⟩
  | elsewhere hrecord ha => exact .inr (.inl ⟨fun h => hrecord (congrArg some h), ha⟩)
  | failed error => exact .inr (.inr ⟨error, rfl⟩)

theorem Exchange.Writes.isChange {place : String × String} {a : Application} {e : Exchange Tracking}
    (h : Exchange.Writes place a e) : e.question.isChange = true := by
  cases h <;> rfl

theorem Slot.Writes.isChange {q : Question} {a : q.Answer} {slot : Slot}
    (h : s.Writes record q a slot) : q.isChange = true := by
  cases h <;> rfl

/-- A change of the record that leaves it as it is fails. -/
theorem Slot.Answers.eq_failed {q : Question} {a : q.Answer} (h : s.Answers record q a)
    (hq : q.isChange = true) (hrecord : q.record? = some record) :
    ∃ error, a = q.failed error := by
  cases h with
  | read => cases hq
  | «exists» => exact ⟨_, rfl⟩
  | stale => exact ⟨_, rfl⟩
  | elsewhere hother => exact absurd hrecord hother
  | failed error => exact ⟨error, rfl⟩

theorem World.mem_said_tell {w : World} {i k : Nat} {e x : Exchange Tracking} :
    x ∈ (w.tell i e).said k ↔ x ∈ w.said k ∨ (k = i ∧ x = e) := by
  by_cases hk : k = i
  · subst hk
    simp
  · simp [said_tell_of_ne hk, hk]

end

namespace World.Coherent

variable {record : String × String} {w : World}

/-- A patch that fits the stored record was made from it. -/
private theorem of_patch {i : Nat} {ns name ns' name' : String} {stored new : Application}
    {p j : Json} (h : w.Coherent record) (hrevised : Revised ns name (w.said i) (some stored) new)
    (hplace : stored.metadata.identity? = some (ns', name')) (hrecord : (ns', name') = record)
    (hp : conditionalPatch? stored new = some p) (hstored : w.slot.stored = some j)
    (hversion : metadataText? p "resourceVersion" = metadataText? j "resourceVersion") :
    w.application? = some stored ∧ p.merge j = new.toJson := by
  obtain ⟨applicationId, hread⟩ := hrevised.read
  have hnamed := h.named i ns applicationId stored hread
  rw [hplace, hrecord] at hnamed
  cases hnamed
  obtain ⟨current, hcurrent, -, heq⟩ := h.seen i stored hread
  cases hstored.symm.trans hcurrent
  have hsame : stored = current := heq <| calc
    stored.metadata.resourceVersion
    _ = metadataText? p "resourceVersion" :=
      (Object.metadataText?_conditionalPatch? hp
        (congrArg Object.Metadata.resourceVersion hrevised.metadata_eq)).symm
    _ = metadataText? current.toJson "resourceVersion" := hversion
    _ = current.metadata.resourceVersion := Object.version_toJson current
  subst hsame
  exact ⟨application?_of_stored hstored, Object.merge_conditionalPatch? hp hrevised.metadata_eq⟩

/-- A write is made from the record as it is, and leaves what the reconcile makes of it. -/
theorem revised {S : Setup} {slot : Slot} {i : Nat} {q : Question} {a : q.Answer}
    (h : w.Coherent S.record) (hasks : (S.work i).Asks (w.said i) q)
    (hwrite : w.slot.Writes S.record q a slot) :
    ∃ (new current : Application) (version : String),
      Revised (S.pods i).1 (S.pods i).2 (w.said i) w.application? new ∧
        current.spec = new.spec ∧ current.metadata.identity? = some S.record ∧
        current.metadata.resourceVersion = some version ∧ version ∉ w.slot.given ∧
        slot = ⟨some current.toJson, version :: w.slot.given⟩ := by
  cases hwrite with
  | @create _ version uid application _ hrecord habsent hfresh ha =>
    obtain ⟨existing, new, hrevised, rfl, rfl, -⟩ := revised_of_asks hasks rfl
    rw [← Option.map_eq_none_iff.1 (h.stored_eq.symm.trans habsent)] at hrevised
    exact ⟨application, { application with
      metadata.uid := some uid
      metadata.resourceVersion := some version }, version, hrevised, rfl, hrecord, rfl, hfresh,
      Slot.put_created ..⟩
  | @patch ns' name' version p j _ hrecord hstored hversion hfresh ha =>
    obtain ⟨existing, new, hrevised, stored, rfl, hplace, hp⟩ := revised_of_asks hasks rfl
    obtain ⟨hcurrent, hmerge⟩ := h.of_patch hrevised hplace hrecord hp hstored hversion
    rw [← hcurrent] at hrevised
    have hidentity : new.metadata.identity? = some S.record := by
      rw [hcurrent] at hrevised
      rw [hrevised.metadata_eq, hplace, hrecord]
    refine ⟨new, { new with metadata.resourceVersion := some version }, version, hrevised, rfl,
      hidentity, rfl, hfresh, ?_⟩
    rw [Slot.put, hmerge, Application.withMetadata_version]

/-- A record that is read now is the stored one. -/
theorem of_get (h : w.Coherent record) {b : Application}
    (hget : (.ok (some b) : Except Kube.Error (Option Application)) = w.slot.get) :
    w.application? = some b ∧ b.metadata.identity? = some record ∧ w.slot.Seen b := by
  cases hstored : w.slot.stored with
  | none => simp [Slot.get, hstored] at hget
  | some j =>
    obtain ⟨a, ha, rfl, hrecord, hgiven⟩ := h.application?_eq hstored
    simp only [Slot.get, hstored, Slot.answer_toJson] at hget
    cases hget
    exact ⟨ha, hrecord, b, hstored, hgiven, fun _ => rfl⟩

private theorem tell (h : w.Coherent record) {i : Nat} {q : Question} {a : q.Answer}
    (ha : w.slot.Answers record q a) : (w.tell i ⟨q, a⟩).Coherent record where
  stored := h.stored
  named k ns name b hb := by
    rcases mem_said_tell.1 hb with hb | ⟨-, hb⟩
    · exact h.named k ns name b hb
    · cases hb
      rcases ha.read_cases with ⟨rfl, hget⟩ | ⟨-, hallows⟩ | ⟨_, herror⟩
      · exact (h.of_get hget).2.1
      · exact hallows
      · cases herror
  seen k b hb := by
    rcases mem_said_tell.1 hb with hb | ⟨-, hb⟩
    · exact h.seen k b hb
    · cases hb
      rcases ha.read_cases with ⟨-, hget⟩ | ⟨hother, -⟩ | ⟨_, herror⟩
      · exact (h.of_get hget).2.2
      · exact absurd rfl hother
      · cases herror

private theorem mem_said_of_not_read {i k : Nat} {q : Question} {a : q.Answer} {ns name : String}
    {b : Application} (hq : q ≠ .getApplication ns name)
    (hb : readOf ns name b ∈ (w.tell i ⟨q, a⟩).said k) : readOf ns name b ∈ w.said k := by
  rcases mem_said_tell.1 hb with hb | ⟨-, hb⟩
  · exact hb
  · cases hb
    exact absurd rfl hq

/-- What was read before a write has another version than what is stored after it. -/
private theorem seen_put {s : Slot} {b current : Application} {version : String} (h : s.Seen b)
    (hversion : current.metadata.resourceVersion = some version) (hfresh : version ∉ s.given) :
    Slot.Seen ⟨some current.toJson, version :: s.given⟩ b := by
  obtain ⟨_, -, hgiven, -⟩ := h
  refine ⟨current, rfl, fun v hv => List.mem_cons_of_mem _ (hgiven v hv), fun hsame => ?_⟩
  rw [hversion] at hsame
  exact absurd (hgiven version hsame) hfresh

theorem step {S : Setup} {w' : World} (h : w.Coherent S.record) (hstep : S.Step w w') :
    w'.Coherent S.record := by
  cases hstep with
  | heard hasks ha => exact h.tell ha
  | @fetched i driver applicationId recorded =>
    have hread : ∀ ns name,
      Question.info driver applicationId recorded ≠ .getApplication ns name := nofun
    exact {
      stored := h.stored
      named k ns name b hb := h.named k ns name b (mem_said_of_not_read (hread ns name) hb)
      seen k b hb := h.seen k b (mem_said_of_not_read (hread _ _) hb) }
  | @wrote i q a slot hasks hwrite =>
    obtain ⟨new, current, version, hrevised, hspec, hrecord, hversion, hfresh, rfl⟩ :=
      h.revised hasks hwrite
    have hread : ∀ ns name, q ≠ .getApplication ns name := by
      rintro ns name rfl
      cases hwrite
    exact {
      stored := by
        intro j hj
        cases hj
        refine ⟨current, rfl, hrecord, fun v hv => ?_⟩
        cases hversion.symm.trans hv
        exact List.mem_cons_self
      named k ns name b hb := h.named k ns name b (mem_said_of_not_read (hread ns name) hb)
      seen k b hb := by
        have hseen := h.seen k b (mem_said_of_not_read (hread _ _) hb)
        exact seen_put hseen hversion hfresh }

end World.Coherent

theorem coherent_start {record : String × String} {application : Option Application}
    (h : ∀ a, application = some a → a.metadata.identity? = some record) :
    (Setup.start application).Coherent record where
  stored j hj := by
    obtain ⟨a, rfl, rfl⟩ := Option.map_eq_some_iff.1 hj
    refine ⟨a, rfl, h a rfl, fun v hv => ?_⟩
    simp [Setup.start, hv]
  named _ _ _ _ hb := nomatch hb
  seen _ _ hb := nomatch hb

/-- What is stored and what was read fit together at any time. -/
theorem coherent_run {S : Setup} {application : Option Application} {w : World}
    (h : ∀ a, application = some a → a.metadata.identity? = some S.record)
    (hrun : S.Run (Setup.start application) w) : w.Coherent S.record := by
  induction hrun with
  | refl => exact coherent_start h
  | tail _ hstep ih => exact ih.step hstep

end SparkLedger.Tracker

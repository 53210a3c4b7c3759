import SparkLedger.Proofs.Tracker.Roster

/-!
# The heritage of a record

How an application was launched is recorded once and never changed, whatever reconciles do beside
each other. What a driver's reconcile goes by is therefore what the record says, also when it has
read the record long before.

* `World.Coherent.heritage?_step`: a heritage that is recorded stays.
* `World.Agrees`: what was read of the record says the heritage that is recorded.
* `World.Launched`: once a driver's reconcile has written the record, the heritage that it goes by
  is recorded.
* `heritage_run`, `heritage?_of_written`: both hold at any time.
-/

namespace SparkLedger.Tracker

open Application (Spec Heritage)
open Dialogue (Transcript Exchange)

variable {S : Setup} {w w' : World} {ns name ns' name' applicationId : String}
  {t : Transcript Tracking} {pod : Pod} {existing existing' : Option Application}
  {start new stored : Application}
  {heritage : Heritage} {r r' : Except Info.Error Info} {spec : Spec}

/-! ## What a write says of the heritage -/

theorem heritageWith?_of_recorded {s : Spec} (h : s.heritage = some heritage) (pod : Pod) :
    s.heritageWith? pod = some heritage := by
  rw [Spec.heritageWith?, h]
  rfl

/-- Who revises a record keeps its heritage. -/
theorem Revised.heritage_eq (h : Revised ns name t existing new)
    (hheritage : existing.bind (·.spec.heritage) = some heritage) :
    new.spec.heritage = some heritage := by
  cases h with
  | driver hstart hrecorded =>
    obtain ⟨a, rfl, ha⟩ := Option.bind_eq_some_iff.1 hheritage
    subst hstart
    exact hrecorded.heritage_eq.trans (heritageWith?_of_recorded ha _)
  | executor => exact hheritage

/-- A driver's reconcile writes the heritage that it goes by. -/
theorem Revised.heritage_of_recording
    (h : Revised ns' name' (opening ns name pod applicationId existing ++
      [fetching pod applicationId start r]) existing' new)
    (hrecording : Recording pod applicationId existing start heritage r spec) :
    new.spec.heritage = some heritage := by
  generalize ht : opening ns name pod applicationId existing ++
    [fetching pod applicationId start r] = t at h
  cases h with
  | driver hstart hrecorded =>
    obtain ⟨hopening, -⟩ := List.append_inj ht rfl
    cases hopening
    obtain ⟨_, _, -, hstart'⟩ := hrecording.start_eq
    have hsame := hrecording.heritage_eq
    rw [hstart'] at hsame
    rw [hrecorded.heritage_eq, hstart]
    cases existing <;> exact hsame
  | executor => cases ht

namespace World

/-- The heritage that is recorded, if any is. -/
def heritage? (w : World) : Option Heritage := w.application?.bind (·.spec.heritage)

theorem heritage?_write {i : Nat} {q : Question} {a : q.Answer} {b : Application}
    {given : List String} (h : b.spec = new.spec) (hnew : new.spec.heritage = some heritage) :
    (w.write i q a ⟨some b.toJson, given⟩).heritage? = some heritage := by
  rw [heritage?, application?_write, Option.bind_some, h, hnew]

theorem Coherent.heritage?_step (h : w.Coherent S.record) (hstep : S.Step w w')
    (hheritage : w.heritage? = some heritage) : w'.heritage? = some heritage := by
  cases hstep with
  | heard => exact hheritage
  | fetched => exact hheritage
  | wrote hasks hwrite =>
    obtain ⟨new, current, version, hrevised, hspec, -, -, -, rfl⟩ := h.revised hasks hwrite
    exact heritage?_write hspec (hrevised.heritage_eq hheritage)

/-! ## What was read of the heritage -/

/-- What was read of the record says the heritage that is recorded, or none. -/
def Agrees (record : String × String) (w : World) : Prop :=
  ∀ i a, readOf record.1 record.2 a ∈ w.said i → ∀ heritage, a.spec.heritage = some heritage →
    w.heritage? = some heritage

theorem Coherent.agrees_step (h : w.Coherent S.record) (hagrees : Agrees S.record w)
    (hstep : S.Step w w') : Agrees S.record w' := by
  intro k b hb heritage hheritage
  have hold (hb : readOf S.record.1 S.record.2 b ∈ w.said k) : w'.heritage? = some heritage :=
    h.heritage?_step hstep (hagrees k b hb heritage hheritage)
  cases hstep with
  | heard hasks ha =>
    rcases mem_said_tell.1 hb with hb | ⟨-, hb⟩
    · exact hold hb
    · cases hb
      rcases ha.read_cases with ⟨-, hget⟩ | ⟨hother, -⟩ | ⟨_, herror⟩
      · rw [← hheritage]
        exact congrArg (·.bind (·.spec.heritage)) (h.of_get hget).1
      · exact absurd rfl hother
      · cases herror
  | fetched =>
    rcases mem_said_tell.1 hb with hb | ⟨-, hb⟩
    · exact hold hb
    · cases hb
  | wrote hasks hwrite =>
    rcases mem_said_tell.1 hb with hb | ⟨-, hb⟩
    · exact hold hb
    · cases hb
      cases hwrite

/-! ## What a driver's reconcile goes by -/

/-- Once a driver's reconcile has written the record, the heritage that it goes by is recorded. -/
def Launched (record : String × String) (w : World) : Prop :=
  ∀ i name pod existing start heritage r spec e stored place,
    Recording pod record.2 existing start heritage r spec →
    e.question.record? = some record → Exchange.Writes place stored e →
    opening record.1 name pod record.2 existing ++ [fetching pod record.2 start r, e] <+:
      w.said i → w.heritage? = some heritage

theorem Coherent.launched_step (h : w.Coherent S.record) (hlaunched : Launched S.record w)
    (hstep : S.Step w w') : Launched S.record w' := by
  intro k name pod existing start heritage r spec e stored place hrecording hrecord hwrites hsaid
  have hold (hsaid : _ <+: w.said k) : w'.heritage? = some heritage :=
    h.heritage?_step hstep
      (hlaunched k name pod existing start heritage r spec e stored place hrecording hrecord
        hwrites hsaid)
  rw [← List.singleton_append (l := [e]), ← List.append_assoc] at hsaid hold
  have hchange := hwrites.isChange
  cases hstep with
  | heard hasks ha =>
    rcases prefix_said_tell.1 hsaid with hbefore | ⟨rfl, hnow⟩
    · exact hold hbefore
    · obtain ⟨-, hlast⟩ := List.append_singleton_inj.1 hnow
      subst hlast
      obtain ⟨_, rfl⟩ := ha.eq_failed hchange hrecord
      cases hwrites
  | fetched =>
    rcases prefix_said_tell.1 hsaid with hbefore | ⟨rfl, hnow⟩
    · exact hold hbefore
    · obtain ⟨-, hlast⟩ := List.append_singleton_inj.1 hnow
      subst hlast
      cases hchange
  | wrote hasks hwrite =>
    rcases prefix_said_tell.1 hsaid with hbefore | ⟨rfl, hnow⟩
    · exact hold hbefore
    · obtain ⟨hbefore, -⟩ := List.append_singleton_inj.1 hnow
      obtain ⟨new, current, version, hrevised, hspec, -, -, -, rfl⟩ := h.revised hasks hwrite
      rw [← hbefore] at hrevised
      exact heritage?_write hspec (hrevised.heritage_of_recording hrecording)

end World

/-! ## Runs -/

variable {application : Option Application}

/-- What was read and what was written say the heritage that is recorded, at any time. -/
theorem heritage_run
    (happlication : ∀ a, application = some a → a.metadata.identity? = some S.record)
    (hrun : S.Run (Setup.start application) w) :
    World.Agrees S.record w ∧ World.Launched S.record w := by
  induction hrun with
  | refl =>
    refine ⟨(fun _ _ h => nomatch h), ?_⟩
    intro i name pod existing start heritage r spec e stored place _ _ _ hsaid
    have hlength := hsaid.length_le
    simp [Setup.start, opening] at hlength
  | tail hrun hstep ih =>
    have hcoherent := coherent_run happlication hrun
    exact ⟨hcoherent.agrees_step ih.1 hstep, hcoherent.launched_step ih.2 hstep⟩

/-- The heritage that a driver's reconcile goes by is recorded once the reconcile has written the
record, or has found nothing to write. -/
theorem heritage?_of_written
    (happlication : ∀ a, application = some a → a.metadata.identity? = some S.record)
    (hrun : S.Run (Setup.start application) w) {i : Nat}
    (hnamed : pod.metadata.identity? = some (ns, name))
    (hrecord : (ns, applicationId) = S.record)
    (hrecording : Recording pod applicationId existing start heritage r spec)
    (hwrite : (writeApplication existing { start with spec }).run.Ends t (.ok stored))
    (hsaid : opening ns name pod applicationId existing ++
      fetching pod applicationId start r :: t <+: w.said i) :
    w.heritage? = some heritage := by
  obtain ⟨rfl, rfl⟩ : ns = S.record.1 ∧ applicationId = S.record.2 := by
    rw [← hrecord]
    exact ⟨rfl, rfl⟩
  obtain ⟨hagrees, hlaunched⟩ := heritage_run happlication hrun
  have hspec : spec.heritage = some heritage :=
    hrecording.recorded.heritage_eq.trans hrecording.heritage_eq
  have hread (a : Application) (ha : existing = some a) :
      readOf S.record.1 S.record.2 a ∈ w.said i := by
    refine hsaid.subset (List.mem_append_left _ ?_)
    rw [ha]
    exact List.mem_cons_of_mem _ List.mem_cons_self
  rcases ends_writeApplication_ok hwrite with ⟨hsame, -, rfl⟩ | ⟨e, place, rfl, hquestion, hwrites⟩
  · exact hagrees i _ (hread _ hsame) heritage hspec
  · refine hlaunched i name pod existing start heritage r spec e stored place hrecording ?_ hwrites
      hsaid
    cases hwrites with
    | create =>
      obtain ⟨rfl, rfl, _⟩ := hquestion
      obtain ⟨_, _, hplace, rfl⟩ := hrecording.start_eq
      cases hnamed.symm.trans hplace
      rfl
    | patch =>
      obtain ⟨a, rfl, hplace, -⟩ := hquestion
      have hcoherent := coherent_run happlication hrun
      exact hplace.symm.trans (hcoherent.named i _ _ a (hread a rfl))

end SparkLedger.Tracker

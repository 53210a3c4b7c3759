import SparkLedger.Proofs.Tracker.Heritage
import SparkLedger.Proofs.Tracker.Snapshots
import SparkLedger.Proofs.Tracker.Totals

/-!
# The identity of a record

Who an application is and how it was launched are written once, by the driver's reconcile that
creates the record. Its name may change, but only to a name that the API has given.

* `creation_of_asks`: what a record is created from.
* `World.Founded`: the record goes back to this driver. `Founded.step`: it stays so.
* `Revised.applicationName`: a write keeps a name, or takes the one that its own fetch has given.
* `Coherent.applicationName_step`: a step keeps a name, or the API has given another one.
* `identity_written_once`: all of it, at any time.
-/

namespace SparkLedger

namespace Application.Spec.Recorded

variable {s s' : Spec} {pod : Pod} {r : Except Info.Error Info}

/-- A name gives way only to one that the API gives. -/
theorem applicationName_eq_or (h : s.Recorded pod r s') (hs : s.applicationName ≠ "") :
    s'.applicationName = s.applicationName ∨
      ∃ info, r = .ok info ∧ info.applicationName ≠ "" ∧
        s'.applicationName = info.applicationName := by
  cases h with
  | @fetched heritage info s' name hheritage hinfo =>
    obtain ⟨statistics, -, rfl⟩ := withInfo_eq_ok_iff.1 hinfo
    by_cases hinfo : info.applicationName = ""
    · left
      simp [named, withDriver, hinfo, hs]
    · right
      exact ⟨info, rfl, hinfo, by simp [named, hinfo]⟩
  | unfetched error name hheritage =>
    left
    simp [named, withDriver, hs]

end Application.Spec.Recorded

namespace Tracker

open Dialogue (Transcript Exchange)

variable {runningRequeue : Seconds} {ns name : String} {t : Transcript Tracking}
  {existing : Option Application} {a new : Application}

/-! ## What a write says of the identity -/

/-- A record is created for a driver. Its labels say whose record it is and how the application was
launched, and its name is there for an application that has none. -/
theorem creation_of_asks {ns' : String}
    (h : (reconcile runningRequeue ns name).run.Asks t (.createApplication ns' new)) :
    ∃ driver applicationId heritage, driver.member? = some (applicationId, .driver) ∧
      t.head?.bind podOf? = some driver ∧ new.metadata.name = some applicationId ∧
      new.spec.applicationId = applicationId ∧ new.spec.heritage = some heritage ∧
      Pod.heritage? driver.labels = some heritage ∧
      (driver.metadata.name ≠ some "" → new.spec.applicationName ≠ "") := by
  rcases asks_reconcile h with ⟨-, hq⟩ | ⟨_, _, -, hpatch⟩ | ⟨pod, id, role, hmember, hrest⟩
  · cases hq
  · exact hpatch.elim
  rcases hrest with ⟨-, hq⟩ | ⟨existing, t', rfl, ⟨-, htrack⟩ | ⟨rfl, htrack⟩⟩
  · cases hq
  · obtain ⟨_, _, _, _, _, _, _, _, _, _, hq⟩ := asks_trackExecutor htrack
    cases hq
  · rcases htrack with ⟨_, _, -, -, hq⟩ | ⟨start, heritage, r, spec, rfl, hr, rfl, rfl, -⟩
    · cases hq
    · obtain ⟨ns'', _, -, rfl⟩ := hr.start_eq
      exact ⟨pod, id, heritage, hmember, rfl, rfl, hr.recorded.applicationId_eq,
        hr.recorded.heritage_eq.trans hr.heritage_eq, hr.heritage_eq, hr.named⟩

/-- Who revises a record keeps the application that it is of. -/
theorem Revised.applicationId_eq (h : Revised ns name t (some a) new) :
    new.spec.applicationId = a.spec.applicationId := by
  cases h with
  | driver hstart hrecorded =>
    subst hstart
    exact hrecorded.applicationId_eq
  | executor => rfl

/-- Who revises a record keeps its name, or takes the one that its own fetch has given. -/
theorem Revised.applicationName (h : Revised ns name t (some a) new)
    (ha : a.spec.applicationName ≠ "") :
    new.spec.applicationName = a.spec.applicationName ∨
      ∃ driver applicationId info,
        t = opening ns name driver applicationId (some a) ++
          [fetchOf driver applicationId a.spec.stageLedger info] ∧
        info.applicationName ≠ "" ∧ new.spec.applicationName = info.applicationName := by
  cases h with
  | @driver pod applicationId _ _ _ r spec hstart hrecorded =>
    subst hstart
    rcases hrecorded.applicationName_eq_or ha with hkept | ⟨info, rfl, hinfo, hgiven⟩
    · exact .inl hkept
    · exact .inr ⟨pod, applicationId, info, rfl, hinfo, hgiven⟩
  | executor => exact .inl rfl

namespace World

variable {S : Setup} {w w' : World} {driver pod : Pod}

theorem read_step {i : Nat} (hstep : S.Step w w') (hread : w.read i = some pod) :
    w'.read i = some pod := by
  have hsome : (w.read i).isSome := by rw [hread]; rfl
  cases hstep with
  | heard => exact (read_tell hsome).trans hread
  | fetched => exact (read_tell hsome).trans hread
  | wrote => exact (read_tell hsome).trans hread

/-! ## The driver behind a record -/

/-- The record was created for this driver, and has been patched ever since. It says of the
application what the labels of this driver say. -/
structure Founded (record : String × String) (w : World) (driver : Pod) : Prop where
  created : ∃ i ns new rest, w.writes = (i, .createApplication ns new) :: rest ∧
    w.read i = some driver ∧ ∀ write ∈ rest, write.2.isCreation = false
  member : driver.member? = some (record.2, .driver)
  known : ∃ a heritage, w.application? = some a ∧ a.spec.applicationId = record.2 ∧
    a.spec.heritage = some heritage ∧ Pod.heritage? driver.labels = some heritage

theorem Founded.step (h : w.Founded S.record driver) (hcoherent : w.Coherent S.record)
    (hstep : S.Step w w') : w'.Founded S.record driver := by
  obtain ⟨i, ns, new, rest, hwrites, hread, hrest⟩ := h.created
  obtain ⟨a, heritage, ha, hid, hheritage, hlabels⟩ := h.known
  have hread' := read_step hstep hread
  cases hstep with
  | heard => exact ⟨⟨i, ns, new, rest, hwrites, hread', hrest⟩, h.member, h.known⟩
  | fetched => exact ⟨⟨i, ns, new, rest, hwrites, hread', hrest⟩, h.member, h.known⟩
  | @wrote k q answer slot hasks hwrite =>
    have hpatch : q.isCreation = false := by
      cases hwrite with
      | create _ habsent =>
        rw [application?, habsent] at ha
        cases ha
      | patch => rfl
    obtain ⟨new', current, version, hrevised, hspec, -, -, -, rfl⟩ := hcoherent.revised hasks hwrite
    rw [ha] at hrevised
    refine ⟨⟨i, ns, new, rest ++ [(k, q)], ?_, hread', fun write hmem => ?_⟩, h.member,
      current, heritage, application?_write .., ?_, ?_, hlabels⟩
    · change w.writes ++ [(k, q)] = _
      rw [hwrites, List.cons_append]
    · rcases List.mem_append.1 hmem with hmem | hmem
      · exact hrest write hmem
      · rw [List.mem_singleton.1 hmem]
        exact hpatch
    · rw [hspec, hrevised.applicationId_eq, hid]
    · rw [hspec, hrevised.heritage_eq hheritage]

theorem Founded.run (h : w.Founded S.record driver) (hcoherent : w.Coherent S.record)
    (hrun : S.Run w w') : w'.Founded S.record driver := by
  suffices w'.Founded S.record driver ∧ w'.Coherent S.record from this.1
  induction hrun with
  | refl => exact ⟨h, hcoherent⟩
  | tail _ hstep ih => exact ⟨ih.1.step ih.2 hstep, ih.2.step hstep⟩

/-- A step before the record is there leaves it absent, or creates it for a driver. -/
theorem Coherent.created_step (h : w.Coherent S.record) (hnone : w.application? = none)
    (hstep : S.Step w w') :
    (w'.application? = none ∧ w'.writes = w.writes) ∨
      ∃ i ns new driver a heritage, w'.writes = w.writes ++ [(i, .createApplication ns new)] ∧
        w.read i = some driver ∧ driver.member? = some (S.record.2, .driver) ∧
        w'.application? = some a ∧ a.spec.applicationId = S.record.2 ∧
        a.spec.heritage = some heritage ∧ Pod.heritage? driver.labels = some heritage ∧
        (driver.metadata.name ≠ some "" → a.spec.applicationName ≠ "") := by
  cases hstep with
  | heard => exact .inl ⟨hnone, rfl⟩
  | fetched => exact .inl ⟨hnone, rfl⟩
  | @wrote i _ _ _ hasks hwrite =>
    cases hwrite with
    | @create ns version uid application _ hrecord =>
      obtain ⟨driver, id, heritage, hmember, hread, hname, hid, hheritage, hlabels, hnamed⟩ :=
        creation_of_asks hasks
      cases hname.symm.trans (Object.Metadata.identity?_eq_some_iff.1 hrecord).2
      refine .inr ⟨i, ns, application, driver, { application with
        metadata.uid := some uid
        metadata.resourceVersion := some version }, heritage, rfl, hread, hmember, ?_, hid,
        hheritage, hlabels, hnamed⟩
      rw [Slot.put_created]
      exact application?_write ..
    | patch _ hstored =>
      obtain ⟨a, ha, -⟩ := h.application?_eq hstored
      cases hnone.symm.trans ha

/-! ## The name -/

/-- The drivers that were read have names. -/
def DriversNamed (w : World) : Prop :=
  ∀ i driver, w.read i = some driver → driver.member?.map (·.2) = some .driver →
    driver.metadata.name ≠ some ""

/-- A step keeps the name of a record that has one, or puts there the name that the API has given
to the reconcile that writes. -/
theorem Coherent.applicationName_step (h : w.Coherent S.record) (haccounted : w.Accounted)
    (hstep : S.Step w w') (ha : w.application? = some a) (hname : a.spec.applicationName ≠ "")
    {a' : Application} (ha' : w'.application? = some a') :
    a'.spec.applicationName = a.spec.applicationName ∨
      ∃ i q driver recorded info window, w'.writes = w.writes ++ [(i, q)] ∧
        fetchOf driver S.record.2 recorded info ∈ w.said i ∧ w.window i = some window ∧
        Info.Fetched S.record.2 recorded window info ∧ info.applicationName ≠ "" ∧
        a'.spec.applicationName = info.applicationName := by
  cases hstep with
  | heard =>
    cases ha.symm.trans ha'
    exact .inl rfl
  | fetched =>
    cases ha.symm.trans ha'
    exact .inl rfl
  | @wrote i q _ _ hasks hwrite =>
    obtain ⟨new, current, version, hrevised, hspec, hrecord, -, -, rfl⟩ :=
      h.revised hasks hwrite
    cases (application?_write ..).symm.trans ha'
    rw [ha] at hrevised
    rw [hspec]
    refine (hrevised.applicationName hname).imp_right ?_
    rintro ⟨driver, id, info, hsaid, hinfo, hgiven⟩
    obtain ⟨window, hwindow, hfetched⟩ := haccounted.exists_window hsaid
    have hread : readOf (S.pods i).1 id a ∈ w.said i := by
      rw [hsaid]
      exact List.mem_cons_of_mem _ List.mem_cons_self
    have hplace := (h.named i _ id a hread).symm.trans (h.identity?_eq ha)
    have hid : id = S.record.2 := congrArg Prod.snd (Option.some.inj hplace)
    subst hid
    refine ⟨i, q, driver, a.spec.stageLedger, info, window, rfl, ?_, hwindow, hfetched, hinfo,
      hgiven⟩
    rw [hsaid, mem_opening_append]
    exact List.mem_cons_self

end World

/-! ## Runs -/

variable {S : Setup} {w : World}

/-- Once the record is there it goes back to a driver. -/
theorem founded_run (hrun : S.Run (Setup.start none) w) :
    (w.application? = none ∧ w.writes = []) ∨ ∃ driver, w.Founded S.record driver := by
  induction hrun with
  | refl => exact .inl ⟨rfl, rfl⟩
  | tail hrun hstep ih =>
    have hcoherent := coherent_run_none hrun
    rcases ih with ⟨hnone, hwrites⟩ | ⟨driver, hfounded⟩
    · rcases hcoherent.created_step hnone hstep with ⟨hnone', hwrites'⟩ | ⟨i, ns, new, driver, a,
        heritage, hwrites', hread, hmember, ha, hid, hheritage, hlabels, -⟩
      · exact .inl ⟨hnone', hwrites'.trans hwrites⟩
      · rw [hwrites, List.nil_append] at hwrites'
        exact .inr ⟨driver, ⟨i, ns, new, [], hwrites', World.read_step hstep hread,
          fun _ hmem => absurd hmem List.not_mem_nil⟩, hmember, a, heritage, ha, hid, hheritage,
          hlabels⟩
    · exact .inr ⟨driver, hfounded.step hcoherent hstep⟩

/-- The record has a name if the drivers have. -/
theorem named_run (hrun : S.Run (Setup.start none) w) (hdrivers : w.DriversNamed) :
    ∀ a, w.application? = some a → a.spec.applicationName ≠ "" := by
  induction hrun with
  | refl => exact fun _ ha => nomatch ha
  | @tail w₁ w₂ hrun hstep ih =>
    have hdrivers₁ : w₁.DriversNamed := fun i driver hread =>
      hdrivers i driver (World.read_step hstep hread)
    have hcoherent := coherent_run_none hrun
    intro a ha
    cases hbefore : w₁.application? with
    | none =>
      rcases hcoherent.created_step hbefore hstep with ⟨hnone, -⟩ | ⟨i, _, _, driver, a', _, -,
        hread, hmember, ha', -, -, -, hnamed⟩
      · cases hnone.symm.trans ha
      · cases ha'.symm.trans ha
        exact hnamed (hdrivers₁ i driver hread (by rw [hmember]; rfl))
    | some a₁ =>
      have hname := ih hdrivers₁ a₁ hbefore
      rcases hcoherent.applicationName_step (accounted_run hrun) hstep hbefore hname ha with
        hkept | ⟨_, _, _, _, info, _, -, -, -, -, hinfo, hgiven⟩
      · rwa [hkept]
      · rwa [hgiven]

/-- The application and its heritage are written when the record is created, as the labels of its
driver say, and never again. The name is there from then on, and changes only to a name that the API
has given to the reconcile that writes it. -/
theorem identity_written_once (hrun : S.Run (Setup.start none) w) :
    w.slot.stored = w.application?.map Application.toJson ∧
      ∀ a, w.application? = some a →
        a.metadata.identity? = some S.record ∧ a.spec.applicationId = S.record.2 ∧
        (∃ i ns new rest driver heritage, w.writes = (i, .createApplication ns new) :: rest ∧
          (∀ write ∈ rest, write.2.isCreation = false) ∧ w.read i = some driver ∧
          driver.member? = some (S.record.2, .driver) ∧
          Pod.heritage? driver.labels = some heritage ∧ a.spec.heritage = some heritage ∧
          ∀ w', S.Run w w' → ∃ a', w'.application? = some a' ∧
            a'.spec.applicationId = S.record.2 ∧ a'.spec.heritage = some heritage) ∧
        (w.DriversNamed → a.spec.applicationName ≠ "" ∧
          ∀ w' a', S.Step w w' → w'.application? = some a' →
            a'.spec.applicationName ≠ a.spec.applicationName →
            ∃ i q driver recorded info window, w'.writes = w.writes ++ [(i, q)] ∧
              fetchOf driver S.record.2 recorded info ∈ w.said i ∧ w.window i = some window ∧
              Info.Fetched S.record.2 recorded window info ∧ info.applicationName ≠ "" ∧
              a'.spec.applicationName = info.applicationName) := by
  have hcoherent : w.Coherent S.record := coherent_run_none hrun
  refine ⟨hcoherent.stored_eq, fun a ha => ?_⟩
  rcases founded_run hrun with ⟨hnone, -⟩ | ⟨driver, hfounded⟩
  · cases hnone.symm.trans ha
  obtain ⟨i, ns, new, rest, hwrites, hread, hrest⟩ := hfounded.created
  obtain ⟨a₀, heritage, ha₀, hid, hheritage, hlabels⟩ := hfounded.known
  cases ha.symm.trans ha₀
  refine ⟨hcoherent.identity?_eq ha, hid, ⟨i, ns, new, rest, driver, heritage, hwrites, hrest,
    hread, hfounded.member, hlabels, hheritage, fun w' hrun' => ?_⟩, fun hdrivers => ?_⟩
  · obtain ⟨a', heritage', ha', hid', hheritage', hlabels'⟩ := (hfounded.run hcoherent hrun').known
    cases hlabels.symm.trans hlabels'
    exact ⟨a', ha', hid', hheritage'⟩
  · have hname := named_run hrun hdrivers a ha
    refine ⟨hname, fun w' a' hstep ha' hchanged => ?_⟩
    exact (hcoherent.applicationName_step (accounted_run hrun) hstep ha hname ha').resolve_left
      hchanged

/-! A driver is reconciled twice. Nobody can be asked at first, then the API gives a name. -/

section

open Setup (start pair pairPod pairRead)

/-- Any number of reconciles of one driver. -/
def Setup.drivers : Setup := { pair with pods _ := ("spark", "driver") }

/-- The record of a driver that nobody could be asked about. -/
def unaskedRecord : Application :=
  { Application.template "spark" "app" with
    spec := ((Application.template "spark" "app").spec.withDriver (pairPod "driver") .submit).named
      "driver" }

open Setup (drivers)

/-- The record is named for the driver's pod until a fetch gives it another name. -/
theorem identity_written_once_renamed :
    ∃ w w' a a', drivers.Run (start none) w ∧ w.DriversNamed ∧ drivers.Step w w' ∧
      w.application? = some a ∧ w'.application? = some a' ∧ a.spec.applicationId = "app" ∧
      a.spec.applicationName = "driver" ∧ a'.spec.applicationName = "wordcount" ∧
      ∃ i driver recorded info, fetchOf driver "app" recorded info ∈ w.said i ∧
        a'.spec.applicationName = info.applicationName := by
  let w₁ := (start none).tell 0 (pairRead "driver")
  let w₂ := w₁.tell 0 ⟨.getApplication "spark" "app",
    (.ok none : Except Kube.Error (Option Application))⟩
  let w₃ := w₂.tell 0
    ⟨.info (pairPod "driver") "app" none, (.error .noClient : Except Info.Error Info)⟩
  let stored := { unaskedRecord with
    metadata.uid := some "app-uid"
    metadata.resourceVersion := some "1" }
  let w₄ := w₃.write 0 (.createApplication "spark" unaskedRecord)
    (.error .notText : Except Kube.Error Application) ⟨some stored.toJson, ["1"]⟩
  let w₅ := w₄.tell 1 (pairRead "driver")
  let w₆ := w₅.tell 1 (readOf "spark" "app" stored)
  let w₇ := w₆.fetch 1 (fetchOf (pairPod "driver") "app" none pairInfo) pairWindow
  have h₁ : drivers.Step (start none) w₁ := .heard (.inl ⟨rfl, rfl⟩) (.elsewhere nofun trivial)
  have h₂ : drivers.Step w₁ w₂ := .heard (.inr ⟨_, _, rfl, .inl ⟨rfl, rfl⟩⟩) (.read rfl)
  have h₃ : drivers.Step w₂ w₃ :=
    .heard (.inr ⟨_, _, rfl, .inr ⟨_, _, rfl, .inl ⟨rfl, rfl⟩⟩⟩) (.failed .notText)
  have hcreate : w₃.slot.Writes drivers.record (.createApplication "spark" unaskedRecord)
      (.error .notText : Except Kube.Error Application) ⟨some stored.toJson, ["1"]⟩ := by
    have hput := Slot.put_created w₃.slot "app-uid" "1" unaskedRecord
    exact hput ▸ .create rfl rfl List.not_mem_nil (.inr ⟨_, rfl⟩)
  have h₄ : drivers.Step w₃ w₄ :=
    .wrote (.inr ⟨_, _, rfl, .inr ⟨_, _, rfl, .inr ⟨_, _, rfl, .inl ⟨rfl, rfl⟩⟩⟩⟩) hcreate
  have h₅ : drivers.Step w₄ w₅ := .heard (.inl ⟨rfl, rfl⟩) (.elsewhere nofun trivial)
  have h₆ : drivers.Step w₅ w₆ := .heard (.inr ⟨_, _, rfl, .inl ⟨rfl, rfl⟩⟩) (.read rfl)
  have h₇ : drivers.Step w₆ w₇ :=
    .fetched (.inr ⟨_, _, rfl, .inr ⟨_, _, rfl, .inl ⟨rfl, rfl⟩⟩⟩) fetched_pairInfo
  let renamed := { stored with
    spec.applicationName := "wordcount"
    spec.statistics := ⟨⟨7, by decide, by decide⟩, 0, ⟨7, by decide, by decide⟩, []⟩
    spec.stageLedger := some ⟨0, .empty⟩ }
  let p := (Object.conditionalPatch? stored renamed).get rfl
  have hp : Object.conditionalPatch? stored renamed = some p := rfl
  have hasks : (drivers.work 1).Asks (w₇.said 1) (.patchApplication "spark" "app" p) :=
    .inr ⟨_, _, rfl, .inr ⟨_, _, rfl, .inr ⟨_, _, rfl, .inl ⟨rfl, rfl⟩⟩⟩⟩
  let w₈ := w₇.write 1 (.patchApplication "spark" "app" p)
    (.error .notText : Except Kube.Error Application) (w₇.slot.put "2" (p.merge stored.toJson))
  have h₈ : drivers.Step w₇ w₈ :=
    .wrote hasks (.patch rfl rfl (Object.metadataText?_conditionalPatch? hp rfl) (by decide)
      (.inr ⟨_, rfl⟩))
  have hrun : drivers.Run (start none) w₇ :=
    .tail (.tail (.tail (.tail (.tail (.tail (.single h₁) h₂) h₃) h₄) h₅) h₆) h₇
  have hdrivers : w₇.DriversNamed := by
    rintro (_ | _ | i) driver hread
    · cases Option.some.inj hread
      exact fun _ => by decide
    · cases Option.some.inj hread
      exact fun _ => by decide
    · simp [World.read, w₇, w₆, w₅, w₄, w₃, w₂, w₁, World.fetch, World.write, World.tell,
        start] at hread
  have ha : w₇.application? = some stored := World.application?_of_stored rfl
  have hname : w₈.application?.map (·.spec.applicationName) = some "wordcount" := by
    decide +kernel
  obtain ⟨a', ha', hname⟩ := Option.map_eq_some_iff.1 hname
  obtain ⟨-, hknown⟩ := identity_written_once hrun
  obtain ⟨-, hid, -, hnamed⟩ := hknown stored ha
  have hchanged : a'.spec.applicationName ≠ stored.spec.applicationName := by
    rw [hname]
    decide
  obtain ⟨i, _, driver, recorded, info, _, -, hfetch, -, -, -, hgiven⟩ :=
    (hnamed hdrivers).2 w₈ a' h₈ ha' hchanged
  exact ⟨w₇, w₈, stored, a', hrun, hdrivers, h₈, ha, ha', hid, rfl, hname, i, driver, recorded,
    info, hfetch, hgiven⟩

end

end Tracker

end SparkLedger

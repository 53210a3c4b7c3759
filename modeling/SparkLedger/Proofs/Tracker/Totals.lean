import Mathlib.Data.List.Nodup
import SparkLedger.Proofs.Stage.Run
import SparkLedger.Proofs.Tracker.Revision

/-!
# The totals of a record

Whatever the reconciles over a record do beside each other, its totals and its ledger are those of
the windows behind its changes, each counted once.

* `Application.Spec.Recorded.step_eq_ok`: a driver's reconcile counts the window that it fetched.
* `World.Accounted`: which windows are behind the changes so far. `Accounted.step`: it stays so.
* `World.Accounted.step_cases`: only a driver whose fetch has succeeded changes the totals or the
  ledger, and it counts its window behind those before.
* `totals_eq_run`: the totals and the ledger at any time.
-/

namespace SparkLedger

open Application (Statistics)

/-! ## What is recorded of a window -/

namespace Application.Spec

variable {s s' : Spec} {pod : Pod} {applicationId : String} {window : Window}

/-- A driver's reconcile counts the window that it fetched. -/
theorem Recorded.step_eq_ok {info : Info} (h : s.Recorded pod (.ok info) s')
    (hinfo : Info.Fetched applicationId s.stageLedger window info) {statistics : Statistics}
    (hs : statistics.totals = s.statistics.totals) :
    ∃ statistics', Update.step (statistics, s.stageLedger) window =
        .ok (statistics', s'.stageLedger) ∧
      statistics'.totals = s'.statistics.totals := by
  cases h with
  | fetched name hheritage hwith =>
    obtain ⟨counted, happly, h⟩ := Checked.bind_eq_ok_iff.1 hwith
    cases h
    have hattempts := hs.trans (Statistics.totals_withAttempts _ info.attempts).symm
    obtain ⟨statistics', happly', htotals⟩ := Update.exists_apply_eq_ok hattempts happly
    refine ⟨statistics', ?_, htotals⟩
    refine Checked.bind_eq_ok_iff.2 ⟨info.update, Info.compute_of_fetched hinfo, ?_⟩
    exact Checked.bind_eq_ok_iff.2 ⟨statistics', happly', rfl⟩

/-- Without a window nothing is counted. -/
theorem Recorded.unfetched_eq {error : Info.Error} (h : s.Recorded pod (.error error) s') :
    s'.statistics = s.statistics ∧ s'.stageLedger = s.stageLedger := by
  cases h
  exact ⟨rfl, rfl⟩

end Application.Spec

namespace Tracker

open Dialogue (Transcript Exchange)

namespace World

/-- The ledger of the record, if there is one. -/
def ledger? (w : World) : Option Ledger := w.application?.bind (·.spec.stageLedger)

/-- The totals of the record, nothing before it is there. -/
def totals (w : World) : Stage.Metrics :=
  (w.application?.elim .zero (·.spec.statistics)).totals

/-- What is known of the windows and the changes so far. -/
structure Accounted (w : World) : Prop where
  /-- A window is that of a successful fetch. -/
  fetched : ∀ i window, w.window i = some window → ∃ driver applicationId recorded info,
    fetchOf driver applicationId recorded info ∈ w.said i ∧
      Info.Fetched applicationId recorded window info
  /-- A successful fetch has a window. -/
  windowed : ∀ i driver applicationId recorded info,
    fetchOf driver applicationId recorded info ∈ w.said i → w.window i ≠ none
  /-- Who has changed the record has said so. -/
  changed : ∀ i q, (i, q) ∈ w.writes → ∃ e ∈ w.said i, e.question.isChange = true

end World

theorem mem_opening_append {ns name : String} {pod driver : Pod} {applicationId id : String}
    {existing : Option Application} {recorded : Option Ledger} {info : Info}
    {t : Transcript Tracking} :
    fetchOf driver id recorded info ∈ opening ns name pod applicationId existing ++ t ↔
      fetchOf driver id recorded info ∈ t := by
  constructor
  · rintro (_ | ⟨_, _ | ⟨_, h⟩⟩)
    exact h
  · exact fun h => List.mem_append_right _ h

variable {S : Setup} {w w' : World}

/-- The window of a fetch right after the record was read. -/
theorem World.Accounted.exists_window {i : Nat} {ns name : String} {pod : Pod}
    {applicationId : String} {existing : Option Application} {recorded : Option Ledger}
    {info : Info} (h : w.Accounted)
    (hsaid : w.said i = opening ns name pod applicationId existing ++
      [fetchOf pod applicationId recorded info]) :
    ∃ window, w.window i = some window ∧ Info.Fetched applicationId recorded window info := by
  have hmem : fetchOf pod applicationId recorded info ∈ w.said i := by
    rw [hsaid, mem_opening_append]
    exact List.mem_cons_self
  obtain ⟨window, hwindow⟩ := Option.ne_none_iff_exists'.1 (h.windowed i _ _ _ _ hmem)
  obtain ⟨driver, id, recorded', info', hmem', hfetched⟩ := h.fetched i window hwindow
  rw [hsaid, mem_opening_append, List.mem_singleton] at hmem'
  cases hmem'
  exact ⟨window, hwindow, hfetched⟩

/-- A reconcile that changes the record counts the window that it fetched, if it fetched one. -/
theorem World.Accounted.counted {i : Nat} {ns name : String} {existing : Option Application}
    {new : Application} (h : w.Accounted)
    (hrevised : Revised ns name (w.said i) existing new) :
    (w.window i = none ∧
        new.spec.statistics.totals = (existing.elim .zero (·.spec.statistics)).totals ∧
        new.spec.stageLedger = existing.bind (·.spec.stageLedger)) ∨
      ∃ window, w.window i = some window ∧ ∀ statistics : Statistics,
        statistics.totals = (existing.elim .zero (·.spec.statistics)).totals →
          ∃ statistics', Update.step (statistics, existing.bind (·.spec.stageLedger)) window =
              .ok (statistics', new.spec.stageLedger) ∧
            statistics'.totals = new.spec.statistics.totals := by
  generalize ht : w.said i = t at hrevised
  cases hrevised with
  | @driver pod applicationId ns' _ start r spec hstart hrecorded =>
    have hstatistics : start.spec.statistics = existing.elim .zero (·.spec.statistics) := by
      rw [hstart]
      cases existing <;> rfl
    have hledger : start.spec.stageLedger = existing.bind (·.spec.stageLedger) := by
      rw [hstart]
      cases existing <;> rfl
    rw [← hledger, ← hstatistics]
    cases r with
    | ok info =>
      obtain ⟨window, hwindow, hfetched⟩ := h.exists_window ht
      exact .inr ⟨window, hwindow, fun _ hs => hrecorded.step_eq_ok hfetched hs⟩
    | error error =>
      left
      obtain ⟨hkept, hledger'⟩ := hrecorded.unfetched_eq
      refine ⟨Option.eq_none_iff_forall_ne_some.2 fun window hwindow => ?_, ?_, hledger'⟩
      · obtain ⟨_, _, _, _, hmem, -⟩ := h.fetched i window hwindow
        rw [ht, mem_opening_append, List.mem_singleton] at hmem
        cases hmem
      · rw [hkept]
  | executor huid =>
    left
    refine ⟨Option.eq_none_iff_forall_ne_some.2 fun window hwindow => ?_, rfl, rfl⟩
    obtain ⟨_, _, _, _, hmem, -⟩ := h.fetched i window hwindow
    rw [ht, ← List.append_nil (opening ..), mem_opening_append] at hmem
    cases hmem

/-! ## Steps -/

/-- No successful fetch is made up. -/
theorem Slot.Answers.info_cases {record : String × String} {s : Slot} {driver : Pod}
    {applicationId : String} {recorded : Option Ledger} {x : Except Info.Error Info}
    (h : s.Answers record (.info driver applicationId recorded) x) : ∃ error, x = .error error := by
  cases h with
  | elsewhere _ ha =>
    cases x with
    | ok info => exact ha.elim
    | error error => exact ⟨error, rfl⟩
  | failed => exact ⟨.noClient, rfl⟩

namespace World

section

variable {i : Nat} {e : Exchange Tracking} {k : Nat}

private theorem Accounted.fetched_tell (h : w.Accounted) {window : Window}
    (hk : w.window k = some window) : ∃ driver applicationId recorded info,
      fetchOf driver applicationId recorded info ∈ (w.tell i e).said k ∧
        Info.Fetched applicationId recorded window info := by
  obtain ⟨driver, id, recorded, info, hmem, hfetched⟩ := h.fetched k window hk
  exact ⟨driver, id, recorded, info, mem_said_tell.2 (.inl hmem), hfetched⟩

private theorem Accounted.changed_tell (h : w.Accounted) {q : Question} (hq : (k, q) ∈ w.writes) :
    ∃ x ∈ (w.tell i e).said k, x.question.isChange = true := by
  obtain ⟨x, hx, hchange⟩ := h.changed k q hq
  exact ⟨x, mem_said_tell.2 (.inl hx), hchange⟩

end

theorem Accounted.step (h : w.Accounted) (hstep : S.Step w w') : w'.Accounted := by
  cases hstep with
  | heard hasks ha =>
    exact {
      fetched _ _ hk := h.fetched_tell hk
      changed _ _ hq := h.changed_tell hq
      windowed k driver id recorded info hmem := by
        rcases mem_said_tell.1 hmem with hbefore | ⟨-, hnow⟩
        · exact h.windowed k driver id recorded info hbefore
        · cases hnow
          obtain ⟨_, herror⟩ := ha.info_cases
          cases herror }
  | @fetched i driver applicationId recorded window info hasks hinfo =>
    exact {
      fetched k window' hk := by
        by_cases hki : k = i
        · subst hki
          cases (Function.update_self ..).symm.trans hk
          exact ⟨driver, applicationId, recorded, info, mem_said_tell.2 (.inr ⟨rfl, rfl⟩), hinfo⟩
        · exact h.fetched_tell ((Function.update_of_ne hki ..).symm.trans hk)
      changed _ _ hq := h.changed_tell hq
      windowed k driver' id recorded' info' hmem := by
        by_cases hki : k = i
        · subst hki
          exact ne_of_eq_of_ne (Function.update_self ..) (Option.some_ne_none window)
        · refine ne_of_eq_of_ne (Function.update_of_ne hki ..) ?_
          rcases mem_said_tell.1 hmem with hbefore | ⟨rfl, -⟩
          · exact h.windowed k driver' id recorded' info' hbefore
          · exact absurd rfl hki }
  | wrote hasks hwrite =>
    exact {
      fetched _ _ hk := h.fetched_tell hk
      changed k q hq := by
        rcases List.mem_append.1 hq with hbefore | hnow
        · exact h.changed_tell hbefore
        · cases List.mem_singleton.1 hnow
          exact ⟨_, mem_said_tell.2 (.inr ⟨rfl, rfl⟩), by cases hwrite <;> rfl⟩
      windowed k driver id recorded info hmem := by
        rcases mem_said_tell.1 hmem with hbefore | ⟨-, hnow⟩
        · exact h.windowed k driver id recorded info hbefore
        · cases hnow
          cases hwrite }

/-- Who fetches has not changed the record yet. -/
private theorem Accounted.ne_of_asks_info (h : w.Accounted) {i k : Nat} {driver : Pod}
    {applicationId : String} {recorded : Option Ledger} {q : Question}
    (hasks : (S.work i).Asks (w.said i) (.info driver applicationId recorded))
    (hq : (k, q) ∈ w.writes) : k ≠ i := by
  rintro rfl
  obtain ⟨e, he, hchange⟩ := h.changed k q hq
  obtain ⟨existing, hsaid⟩ := eq_opening_of_asks_info hasks
  rw [hsaid] at he
  rw [isChange_of_mem_opening he] at hchange
  cases hchange

/-- Only a driver whose fetch has succeeded changes the totals or the ledger: it counts its window
behind those before. -/
theorem Accounted.step_cases (h : w.Accounted) (hcoherent : w.Coherent S.record)
    (hstep : S.Step w w') :
    (w'.windows = w.windows ∧ w'.totals = w.totals ∧ w'.ledger? = w.ledger?) ∨
      ∃ i q window, w.window i = some window ∧ w'.writes = w.writes ++ [(i, q)] ∧
        w'.windows = w.windows ++ [window] ∧
        ∀ statistics : Statistics, statistics.totals = w.totals →
          ∃ statistics', Update.step (statistics, w.ledger?) window =
              .ok (statistics', w'.ledger?) ∧
            statistics'.totals = w'.totals := by
  cases hstep with
  | heard => exact .inl ⟨rfl, rfl, rfl⟩
  | fetched hasks hinfo =>
    refine .inl ⟨List.filterMap_congr fun (k, q) hq => ?_, rfl, rfl⟩
    exact Function.update_of_ne (h.ne_of_asks_info hasks hq) ..
  | @wrote i q _ _ hasks hwrite =>
    obtain ⟨new, current, version, hrevised, hspec, -, -, -, rfl⟩ :=
      hcoherent.revised hasks hwrite
    simp only [ledger?, totals, application?_write, Option.bind_some, Option.elim_some, hspec,
      windows_write]
    rcases h.counted hrevised with ⟨hnone, hkept, hledger⟩ | ⟨window, hwindow, hcounted⟩
    · rw [hnone]
      exact .inl ⟨List.append_nil _, hkept, hledger⟩
    · refine .inr ⟨i, q, window, hwindow, rfl, ?_, hcounted⟩
      rw [hwindow]
      rfl

/-- Who changes the record has not changed it before. -/
theorem Accounted.nodup_step (h : w.Accounted) (hcoherent : w.Coherent S.record)
    (hnodup : (w.writes.map Prod.fst).Nodup) (hstep : S.Step w w') :
    (w'.writes.map Prod.fst).Nodup := by
  cases hstep with
  | heard => exact hnodup
  | fetched => exact hnodup
  | @wrote i q _ _ hasks hwrite =>
    obtain ⟨new, _, _, hrevised, -⟩ := hcoherent.revised hasks hwrite
    have hnew : i ∉ w.writes.map Prod.fst := by
      intro hmem
      obtain ⟨⟨_, q'⟩, hq', rfl⟩ := List.mem_map.1 hmem
      obtain ⟨e, he, hchange⟩ := h.changed _ q' hq'
      rw [hrevised.isChange_of_mem he] at hchange
      cases hchange
    have hmap : (w.writes ++ [(i, q)]).map Prod.fst = (w.writes.map Prod.fst).concat i := by
      rw [List.map_append, List.concat_eq_append]
      rfl
    exact hmap ▸ List.Nodup.concat hnew hnodup

end World

/-! ## Runs -/

theorem accounted_run (hrun : S.Run (Setup.start none) w) : w.Accounted := by
  induction hrun with
  | refl =>
    exact {
      fetched := nofun
      windowed _ _ _ _ _ hmem := nomatch hmem
      changed _ _ hq := nomatch hq }
  | tail _ hstep ih => exact ih.step hstep

/-- What is stored and what was read fit together if the record was absent at first. -/
theorem coherent_run_none (hrun : S.Run (Setup.start none) w) : w.Coherent S.record :=
  coherent_run (fun a ha => by cases ha) hrun

private theorem counted_run (hrun : S.Run (Setup.start none) w) :
    ∃ statistics, Update.run .zero w.windows = .ok (statistics, w.ledger?) ∧
      statistics.totals = w.totals := by
  induction hrun with
  | refl => exact ⟨.zero, rfl, rfl⟩
  | tail hrun hstep ih =>
    obtain ⟨statistics, hcount, htotals⟩ := ih
    rcases (accounted_run hrun).step_cases (coherent_run_none hrun) hstep with
      ⟨hwindows, htotals', hledger⟩ | ⟨i, q, window, -, -, hwindows, hstep⟩
    · rw [hwindows, htotals', hledger]
      exact ⟨statistics, hcount, htotals⟩
    · obtain ⟨statistics', hstep, htotals'⟩ := hstep statistics htotals
      rw [hwindows]
      exact ⟨statistics', Update.run_concat hcount hstep, htotals'⟩

private theorem nodup_writes_run (hrun : S.Run (Setup.start none) w) :
    (w.writes.map Prod.fst).Nodup := by
  induction hrun with
  | refl => exact List.nodup_nil
  | tail hrun hstep ih => exact (accounted_run hrun).nodup_step (coherent_run_none hrun) ih hstep

/-- Every window is counted once or not at all, whatever reconciles do beside each other. -/
theorem totals_eq_run (hrun : S.Run (Setup.start none) w) :
    w.slot.stored = w.application?.map Application.toJson ∧
      (∃ statistics, Update.run .zero w.windows = .ok (statistics, w.ledger?) ∧
        statistics.totals = w.totals) ∧
      (w.writes.map Prod.fst).Nodup ∧
      (∀ i, w.window i ≠ none ↔ ∃ driver applicationId recorded info,
        fetchOf driver applicationId recorded info ∈ w.said i) ∧
      ∀ w', S.Step w w' →
        (w'.windows = w.windows ∧ w'.totals = w.totals ∧ w'.ledger? = w.ledger?) ∨
          ∃ i q window, w.window i = some window ∧ w'.writes = w.writes ++ [(i, q)] ∧
            w'.windows = w.windows ++ [window] := by
  have hcoherent := coherent_run_none hrun
  have haccounted := accounted_run hrun
  refine ⟨hcoherent.stored_eq, counted_run hrun, nodup_writes_run hrun, fun i => ⟨?_, ?_⟩, ?_⟩
  · intro hwindow
    obtain ⟨window, hwindow⟩ := Option.ne_none_iff_exists'.1 hwindow
    obtain ⟨driver, id, recorded, info, hmem, -⟩ := haccounted.fetched i window hwindow
    exact ⟨driver, id, recorded, info, hmem⟩
  · rintro ⟨driver, id, recorded, info, hmem⟩
    exact haccounted.windowed i driver id recorded info hmem
  · intro w' hstep
    rcases haccounted.step_cases hcoherent hstep with
      hkept | ⟨i, q, window, hwindow, hwrites, hwindows, -⟩
    · exact .inl hkept
    · exact .inr ⟨i, q, window, hwindow, hwrites, hwindows⟩

/-! A driver creates the record after its first fetch, and the answer is lost. -/

section

open Rest (Client ApplicationReport EnvironmentReport)
open Setup (start pair pairPod pairRead)

private def seven : Signed64 := ⟨7, by decide, by decide⟩

/-- One finished stage. -/
def pairWindow : Window := [⟨.complete, 0, 0, "", 0, seven, 0, seven⟩]

/-- What the driver's first fetch comes to. -/
def pairInfo : Info :=
  ⟨"wordcount", [], .empty, .full ⟨0, seven, seven⟩ ⟨0, .empty⟩⟩

theorem fetched_pairInfo : Info.Fetched "app" none pairWindow pairInfo := by
  let client : Client := ⟨.driver, .recorded "driver"⟩
  refine ⟨.driver client, [
    ⟨(client, .application),
      (.ok ⟨"app", "wordcount", []⟩ : Except Rest.Error ApplicationReport)⟩,
    ⟨(client, .environment),
      (.ok ⟨⟨"", "", ""⟩, [], [], []⟩ : Except Rest.Error EnvironmentReport)⟩,
    ⟨(client, .stages), (.ok pairWindow : Except Rest.Error Window)⟩], client, ?_, by simp⟩
  exact ⟨_, _, rfl, _, _, rfl, _, _, rfl, rfl, rfl⟩

theorem totals_eq_run_pair :
    ∃ w, pair.Run (start none) w ∧ w.windows = [pairWindow] ∧
      ∃ statistics, Update.run .zero w.windows = .ok (statistics, w.ledger?) ∧
        statistics.totals = w.totals := by
  let w₁ := (start none).tell 0 (pairRead "driver")
  let w₂ := w₁.tell 0 ⟨.getApplication "spark" "app",
    (.ok none : Except Kube.Error (Option Application))⟩
  let w₃ := w₂.fetch 0 (fetchOf (pairPod "driver") "app" none pairInfo) pairWindow
  have h₁ : pair.Step (start none) w₁ := .heard (.inl ⟨rfl, rfl⟩) (.elsewhere nofun trivial)
  have h₂ : pair.Step w₁ w₂ := .heard (.inr ⟨_, _, rfl, .inl ⟨rfl, rfl⟩⟩) (.read rfl)
  have h₃ : pair.Step w₂ w₃ :=
    .fetched (.inr ⟨_, _, rfl, .inr ⟨_, _, rfl, .inl ⟨rfl, rfl⟩⟩⟩) fetched_pairInfo
  have hcreates : ∃ application : Application,
      (pair.work 0).Asks (w₃.said 0) (.createApplication "spark" application) ∧
        application.metadata.identity? = some pair.record :=
    ⟨_, .inr ⟨_, _, rfl, .inr ⟨_, _, rfl, .inr ⟨_, _, rfl, .inl ⟨rfl, rfl⟩⟩⟩⟩, rfl⟩
  obtain ⟨application, hasks, hrecord⟩ := hcreates
  let slot := w₃.slot.put "1" (Cluster.withMetadata "uid" "app-uid" application.toJson)
  have hwrite : w₃.slot.Writes pair.record (.createApplication "spark" application)
      (.error .notText : Except Kube.Error Application) slot :=
    .create hrecord rfl List.not_mem_nil (.inr ⟨_, rfl⟩)
  have h₄ := Setup.Step.wrote hasks hwrite
  have hrun : pair.Run (start none) _ := .tail (.tail (.tail (.single h₁) h₂) h₃) h₄
  exact ⟨_, hrun, rfl, (totals_eq_run hrun).2.1⟩

end

end Tracker

end SparkLedger

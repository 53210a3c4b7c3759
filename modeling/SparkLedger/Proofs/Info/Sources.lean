import SparkLedger.Info.Locate
import SparkLedger.Proofs.Dialogue
import SparkLedger.Proofs.Stage.Recount

/-!
# Sources that answer alike

Services and reports that stay the same. What is fetched from them depends on the recorded ledger
only through the count of the stages, and on the driver only through its address and status. So a
fetch after which the count is recorded gives the same info again, with nothing to add.

* `Dialogue.result?`: what a dialogue comes to with fixed answers.
* `Sources`: services and reports that stay the same. `Sources.info?`: the info fetched from them.
* `Sources.info?_again`, `Sources.info?_error`: the same fetch later on.
-/

namespace SparkLedger

namespace Dialogue

variable {I : Interface} {α β ε : Type}

/-- What a dialogue comes to with fixed answers, unless it breaks off. -/
def result? (answer : (q : I.Question) → I.Answer q) : Dialogue I α → Option α
  | .done a => some a
  | .ask q next => (next (answer q)).result? answer
  | .note _ next => next.result? answer
  | .broken _ => none

variable {answer : (q : I.Question) → I.Answer q}

theorem result?_bind (d : Dialogue I α) (f : α → Dialogue I β) :
    (d.bind f).result? answer = (d.result? answer).bind fun a => (f a).result? answer := by
  induction d with
  | done a => rfl
  | ask q next ih => exact ih (answer q)
  | note line next ih => exact ih
  | broken o => rfl

theorem result?_run_bind (x : ExceptT ε (Dialogue I) α) (f : α → ExceptT ε (Dialogue I) β) :
    (x >>= f).run.result? answer = (x.run.result? answer).bind fun
      | .ok a => (f a).run.result? answer
      | .error e => some (.error e) := by
  rw [ExceptT.run_bind, bind_eq, result?_bind]
  refine congrArg _ (funext fun r => ?_)
  cases r <;> rfl

theorem result?_run_bind_eq_ok {x : ExceptT ε (Dialogue I) α} {f : α → ExceptT ε (Dialogue I) β}
    {b : β} (h : (x >>= f).run.result? answer = some (.ok b)) :
    ∃ a, x.run.result? answer = some (.ok a) ∧ (f a).run.result? answer = some (.ok b) := by
  rw [result?_run_bind] at h
  obtain ⟨r, hr, h⟩ := Option.bind_eq_some_iff.1 h
  cases r with
  | ok a => exact ⟨a, hr, h⟩
  | error e => cases h

theorem result?_run_lift (d : Dialogue I α) :
    (ExceptT.lift d : ExceptT ε (Dialogue I) α).run.result? answer =
      (d.result? answer).map .ok := by
  change (d.bind fun a => .done (Except.ok a)).result? answer = _
  rw [result?_bind]
  cases d.result? answer <;> rfl

theorem result?_foldr_note (lines : List Log.Line) (d : Dialogue I α) :
    (lines.foldr .note d).result? answer = d.result? answer := by
  induction lines with
  | nil => rfl
  | cons line lines ih => exact ih

end Dialogue

namespace Info

open Rest (Client Call)

/-! ## Fetching in two parts -/

/-- What is fetched of an application, its stages not yet counted. -/
structure Gathered where
  applicationName : String
  attempts : List Application.Attempt
  properties : SortedMap String String
  window : Window

/-- The info once the stages are counted. -/
def Gathered.counted (g : Gathered) (update : Update) : Info :=
  ⟨g.applicationName, g.attempts, g.properties, update⟩

/-- Fetches all there is to an application. -/
def gather (source : Source) (applicationId : String) : Fetch Gathered := do
  let (application, client) ← describe applicationId source
  let environment : Rest.EnvironmentReport ← call client .environment
  let stages : Window ← call client .stages
  say .info ("Fetched '" ++ applicationId ++ "' info: " ++ toString application.attempts.length ++
    " attempt(s), " ++ toString stages.length ++ " stage(s) in window")
  ExceptT.lift ((propertyLines environment.sparkProperties).foldr .note (.done ()))
  return ⟨application.name, application.attempts.map attempt,
    flattened environment.sparkProperties, stages⟩

theorem fetch_eq (source : Source) (applicationId : String) (recorded : Option Ledger) :
    fetch source applicationId recorded = (do
      let g ← gather source applicationId
      let update ← ExceptT.lift (Update.computed g.window recorded)
      return g.counted update) := by
  unfold fetch gather
  rw [bind_assoc]
  refine congrArg _ (funext fun (application, client) => Eq.symm ?_)
  exact (bind_assoc ..).trans <| congrArg _ <| funext fun environment =>
    (bind_assoc ..).trans <| congrArg _ <| funext fun stages =>
      (bind_assoc ..).trans <| congrArg _ <| funext fun _ =>
        (bind_assoc ..).trans <| congrArg _ <| funext fun _ => pure_bind ..

/-- A call that succeeds gives what is reported. -/
theorem eq_ok_of_result?_call {answer : (q : Calling.Question) → Calling.Answer q}
    {client : Client} {c : Call} {report : c.Report}
    (h : (call client c).run.result? answer = some (.ok report)) :
    answer (client, c) = (.ok report : Except Rest.Error c.Report) := by
  have hmapped : Except.mapError Error.api (answer (client, c) : Except Rest.Error c.Report) =
      .ok report := Option.some.inj h
  cases hanswer : (answer (client, c) : Except Rest.Error c.Report) with
  | ok r =>
    rw [hanswer] at hmapped
    cases hmapped
    rfl
  | error e => rw [hanswer] at hmapped; cases hmapped

/-! ## Sources -/

/-- Services and reports that stay the same. -/
structure Sources where
  settings : Settings
  /-- The services of a namespace that a selector finds. -/
  services : (q : Listing.Question) → Listing.Answer q
  /-- What is reported of an application. -/
  report : String → (q : Calling.Question) → Calling.Answer q

namespace Sources

variable (S : Sources)

/-- What is fetched for a driver. -/
def gathered? (driver : Pod) (applicationId : String) : Option (Except Error Gathered) :=
  ((locate S.settings driver).result? S.services).bind fun
    | .error error => some (.error error)
    | .ok source => (gather source applicationId).run.result? (S.report applicationId)

/-- The info on the application of a driver, if the count of its stages does not overflow. -/
def info? (driver : Pod) (applicationId : String) (recorded : Option Ledger) :
    Option (Except Error Info) :=
  ((locate S.settings driver).result? S.services).bind fun
    | .error error => some (.error error)
    | .ok source => (fetch source applicationId recorded).run.result? (S.report applicationId)

/-- Nobody reports a stage with the last of all ids. -/
def LeavesRoom : Prop :=
  ∀ applicationId client (window : Window),
    S.report applicationId (client, .stages) = (.ok window : Except Rest.Error Window) →
      ∀ s ∈ window, s.id.val < 9223372036854775807

variable {S} {driver driver' : Pod} {applicationId : String} {recorded : Option Ledger}

theorem result?_computed {I : Interface} {answer : (q : I.Question) → I.Answer q} (w : Window) :
    (Update.computed w recorded : Dialogue I Update).result? answer =
      (Update.compute w recorded).toOption := by
  rw [Update.computed, Dialogue.result?_foldr_note]
  cases Update.compute w recorded <;> rfl

theorem info?_eq (S : Sources) (driver : Pod) (applicationId : String) (recorded : Option Ledger) :
    S.info? driver applicationId recorded = (S.gathered? driver applicationId).bind fun
      | .error error => some (.error error)
      | .ok g => (Update.compute g.window recorded).toOption.map fun u => .ok (g.counted u) := by
  unfold info? gathered?
  rw [Option.bind_assoc]
  refine congrArg _ (funext fun source? => ?_)
  cases source? with
  | error error => rfl
  | ok source =>
    dsimp only
    rw [fetch_eq, Dialogue.result?_run_bind]
    refine congrArg _ (funext fun g? => ?_)
    cases g? with
    | error error => rfl
    | ok g =>
      dsimp only
      rw [Dialogue.result?_run_bind, Dialogue.result?_run_lift, result?_computed]
      cases Update.compute g.window recorded <;> rfl

/-- The stages that are fetched are reported. -/
theorem exists_report_of_gathered? {g : Gathered}
    (h : S.gathered? driver applicationId = some (.ok g)) :
    ∃ client, S.report applicationId (client, .stages) =
      (.ok g.window : Except Rest.Error Window) := by
  obtain ⟨source?, -, h⟩ := Option.bind_eq_some_iff.1 h
  cases source? with
  | error error => cases h
  | ok source =>
    obtain ⟨⟨application, client⟩, -, h⟩ := Dialogue.result?_run_bind_eq_ok h
    obtain ⟨environment, -, h⟩ := Dialogue.result?_run_bind_eq_ok h
    obtain ⟨window, hcall, h⟩ := Dialogue.result?_run_bind_eq_ok h
    obtain ⟨-, -, h⟩ := Dialogue.result?_run_bind_eq_ok h
    obtain ⟨-, -, h⟩ := Dialogue.result?_run_bind_eq_ok h
    cases h
    exact ⟨client, eq_ok_of_result?_call hcall⟩

theorem gathered?_congr (hns : driver'.metadata.ns = driver.metadata.ns)
    (hname : driver'.metadata.name = driver.metadata.name)
    (hstatus : driver'.status = driver.status) (applicationId : String) :
    S.gathered? driver' applicationId = S.gathered? driver applicationId := by
  obtain ⟨⟨name, ns, _, _, _, _, _, _⟩, status⟩ := driver
  obtain ⟨⟨name', ns', _, _, _, _, _, _⟩, status'⟩ := driver'
  cases hns
  cases hname
  cases hstatus
  rfl

/-- Once what was fetched is recorded, fetching it again adds nothing. -/
theorem info?_again (hroom : S.LeavesRoom) {info : Info}
    (h : S.info? driver applicationId recorded = some (.ok info))
    (hns : driver'.metadata.ns = driver.metadata.ns)
    (hname : driver'.metadata.name = driver.metadata.name)
    (hstatus : driver'.status = driver.status) :
    S.info? driver' applicationId (some info.update.ledger) =
      some (.ok { info with update := .incremental 0 info.update.ledger }) := by
  rw [info?_eq] at h ⊢
  rw [gathered?_congr hns hname hstatus]
  obtain ⟨g?, hg, h⟩ := Option.bind_eq_some_iff.1 h
  rw [hg]
  cases g? with
  | error error => cases h
  | ok g =>
    obtain ⟨u, hu, h⟩ := Option.map_eq_some_iff.1 h
    cases h
    obtain ⟨client, hreport⟩ := exists_report_of_gathered? hg
    have hcompute : Update.compute g.window recorded = .ok u := by
      cases hc : Update.compute g.window recorded with
      | ok u' => rw [hc] at hu; cases hu; rfl
      | error o => rw [hc] at hu; cases hu
    have hagain := Update.compute_again (hroom _ _ _ hreport) hcompute
    change (Update.compute g.window (some u.ledger)).toOption.map _ = _
    rw [hagain]
    rfl

/-- A fetch that fails does so whatever is recorded. -/
theorem info?_error {error : Error}
    (h : S.info? driver applicationId recorded = some (.error error))
    (hns : driver'.metadata.ns = driver.metadata.ns)
    (hname : driver'.metadata.name = driver.metadata.name)
    (hstatus : driver'.status = driver.status) (recorded' : Option Ledger) :
    S.info? driver' applicationId recorded' = some (.error error) := by
  rw [info?_eq] at h ⊢
  rw [gathered?_congr hns hname hstatus]
  obtain ⟨g?, hg, h⟩ := Option.bind_eq_some_iff.1 h
  rw [hg]
  cases g? with
  | error error => exact h
  | ok g =>
    obtain ⟨u, -, h⟩ := Option.map_eq_some_iff.1 h
    cases h

/-- An ended stage and a running one. -/
def historicalWindow : Window :=
  let five : Signed64 := ⟨5, by decide, by decide⟩
  [⟨.complete, five, 0, "", five, five, five, five⟩, ⟨.active, 0, 0, "", 0, five, five, five⟩]

/-- A history server. -/
def historical : Sources where
  settings := .standard
  services _ := (.ok [⟨{ Object.Metadata.empty with name := some "history" }⟩] :
    Except Kube.Error (List Service))
  report
    | _, (_, .application) => (.ok ⟨"app", "Application", []⟩ :
        Except Rest.Error Rest.ApplicationReport)
    | _, (_, .environment) => (.ok ⟨⟨"", "", ""⟩, [["spark.app.id", "app"]], [], []⟩ :
        Except Rest.Error Rest.EnvironmentReport)
    | _, (_, .stages) => (.ok historicalWindow : Except Rest.Error Window)
    | _, (_, .executors) => (.error (.undecodable "") :
        Except Rest.Error (List Rest.ExecutorReport))
    | _, (_, .streaming) => (.error (.undecodable "") : Except Rest.Error Rest.StreamingReport)
    | _, (_, .metrics) => (.error (.undecodable "") : Except Rest.Error Json)

theorem leavesRoom_historical : historical.LeavesRoom := by
  intro applicationId client window h
  cases h
  decide

end Sources

end Info

end SparkLedger

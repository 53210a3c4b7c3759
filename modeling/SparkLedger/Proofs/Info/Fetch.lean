import SparkLedger.Info.Basic
import SparkLedger.Proofs.Dialogue

/-!
# Fetches

The calls of a fetch come in one order: the application, from the history server and after its
failure from the driver, then the environment and the stages from whoever described it.

* `Reaches`: the exchanges after which a fetch makes a call.
* `asks_fetch`, `ends_fetch_ok`, `ends_fetch_error`: what a fetch asks for, and what it ends with.
* `Fetched`: a fetch that reports a window can come to this info.
* `compute_of_fetched`: the update in the info is the one by the window.
-/

namespace SparkLedger

open Dialogue (Transcript Exchange asks_run_bind ends_run_bind_ok ends_run_bind_error
  asks_run_lift ends_run_lift asks_foldr_note ends_foldr_note asks_question ends_question asks_bind
  ends_bind endsSaying_bind endsSaying_run_bind_ok ends_iff_exists_endsSaying
  eq_append_of_endsSaying_foldr_note)

namespace Update

variable {I : Interface} {t : Transcript I} {window : Window} {recorded : Option Ledger}

theorem asks_computed {q : I.Question} :
    ¬(computed window recorded : Dialogue I Update).Asks t q := by
  rw [computed, asks_foldr_note]
  cases compute window recorded <;> exact id

theorem ends_computed {u : Update} :
    (computed window recorded : Dialogue I Update).Ends t u ↔
      t = [] ∧ compute window recorded = .ok u :=
  ends_foldr_note.trans Dialogue.ends_checked

end Update

namespace Info

open Rest (Client Call ApplicationReport EnvironmentReport)

variable {t : Transcript Calling} {q : Client × Call} {source : Source} {client : Client}
  {applicationId : String} {recorded : Option Ledger}

/-! ## Calls -/

/-- A call that fails. -/
def failing (q : Client × Call) (error : Rest.Error) : Exchange Calling :=
  ⟨q, (.error error : Except Rest.Error q.2.Report)⟩

/-- A call that succeeds. -/
def reporting (client : Client) (c : Call) (report : c.Report) : Exchange Calling :=
  ⟨(client, c), (.ok report : Except Rest.Error c.Report)⟩

section

variable {c : Call}

theorem asks_call : (call client c).run.Asks t q ↔ t = [] ∧ q = (client, c) := by
  refine asks_bind.trans ⟨?_, fun h => .inl (asks_question.2 h)⟩
  rintro (h | ⟨_, _, _, _, _, h⟩)
  · exact asks_question.1 h
  · exact h.elim

theorem ends_call {r : Except Error c.Report} :
    (call client c).run.Ends t r ↔
      ∃ a : Except Rest.Error c.Report, t = [⟨(client, c), a⟩] ∧ r = a.mapError .api := by
  refine ends_bind.trans ⟨?_, ?_⟩
  · rintro ⟨t₁, t₂, a, rfl, ha, rfl, rfl⟩
    exact ⟨a, by rw [List.append_nil, ends_question.1 ha], rfl⟩
  · rintro ⟨a, rfl, rfl⟩
    exact ⟨_, [], a, (List.append_nil _).symm, ends_question.2 rfl, rfl, rfl⟩

theorem ends_call_ok {report : c.Report} :
    (call client c).run.Ends t (.ok report) ↔ t = [reporting client c report] := by
  refine ends_call.trans ⟨?_, fun h => ⟨.ok report, h, rfl⟩⟩
  rintro ⟨a, rfl, h⟩
  cases a with
  | ok r =>
    cases h
    rfl
  | error error => cases h

theorem ends_call_error {e : Error} :
    (call client c).run.Ends t (.error e) ↔
      ∃ error, t = [failing (client, c) error] ∧ e = .api error := by
  refine ends_call.trans ⟨?_, ?_⟩
  · rintro ⟨a, rfl, h⟩
    cases a with
    | ok r => cases h
    | error error =>
      cases h
      exact ⟨error, rfl, rfl⟩
  · rintro ⟨error, rfl, rfl⟩
    exact ⟨.error error, rfl, rfl⟩

end

theorem ends_say {level : Log.Level} {text : String} {r : Except Error Unit} :
    (say level text).run.Ends t r ↔ t = [] ∧ r = .ok () := by
  refine ends_run_lift.trans ⟨?_, ?_⟩
  · rintro ⟨_, ⟨rfl, -⟩, rfl⟩
    exact ⟨rfl, rfl⟩
  · rintro ⟨rfl, rfl⟩
    exact ⟨(), ⟨rfl, rfl⟩, rfl⟩

theorem asks_say {level : Log.Level} {text : String} : ¬(say level text).run.Asks t q :=
  fun h => asks_run_lift.1 h

/-! ## The order of the calls -/

/-- After these exchanges a fetch makes this call. -/
inductive Reaches : Source → Transcript Calling → Client × Call → Prop
  | server {server : Client} {fallback : Option Client} :
    Reaches (.history server fallback) [] (server, .application)
  | driver {client : Client} : Reaches (.driver client) [] (client, .application)
  | fallback {server driver : Client} {error : Rest.Error} :
    Reaches (.history server (some driver)) [failing (server, .application) error]
      (driver, .application)
  | environment {source : Source} {t : Transcript Calling} {client : Client}
    {report : ApplicationReport} (h : Reaches source t (client, .application)) :
    Reaches source (t ++ [reporting client .application report]) (client, .environment)
  | stages {source : Source} {t : Transcript Calling} {client : Client}
    {report : EnvironmentReport} (h : Reaches source t (client, .environment)) :
    Reaches source (t ++ [reporting client .environment report]) (client, .stages)

/-- Nobody is left to describe the application after these exchanges. -/
def Final (source : Source) (t : Transcript Calling) : Prop :=
  ∀ client, ¬Reaches source t (client, .application)

theorem reaches_application :
    Reaches source t (client, .application) ↔
      (t = [] ∧ ((∃ fallback, source = .history client fallback) ∨ source = .driver client)) ∨
        ∃ server error, source = .history server (some client) ∧
          t = [failing (server, .application) error] := by
  constructor
  · intro h
    cases h with
    | server => exact .inl ⟨rfl, .inl ⟨_, rfl⟩⟩
    | driver => exact .inl ⟨rfl, .inr rfl⟩
    | fallback => exact .inr ⟨_, _, rfl, rfl⟩
  · rintro (⟨rfl, ⟨fallback, rfl⟩ | rfl⟩ | ⟨server, error, rfl, rfl⟩)
    · exact .server
    · exact .driver
    · exact .fallback

/-- Only the application is called for before it is described. -/
theorem call_of_reaches (h : Reaches source t (client, .application)) :
    ∀ e ∈ t, e.question.2 = .application := by
  rcases reaches_application.1 h with ⟨rfl, -⟩ | ⟨server, error, -, rfl⟩ <;> simp [failing]

/-- Only the failure of a history server leaves somebody else. -/
theorem final_of_ne (ht : t ≠ [])
    (h : ∀ server driver error, source = .history server (some driver) →
      t ≠ [failing (server, .application) error]) : Final source t := by
  intro client hreach
  rcases reaches_application.1 hreach with ⟨rfl, -⟩ | ⟨server, error, rfl, rfl⟩
  · exact ht rfl
  · exact h server client error rfl rfl

theorem final_concat {e : Exchange Calling}
    (h : ∀ client error, e ≠ failing (client, .application) error) : Final source (t ++ [e]) := by
  refine final_of_ne (by simp) fun server driver error _ ht => ?_
  have hlast : t ++ [e] = [] ++ [failing (server, .application) error] := ht
  exact h server error (List.singleton_inj.1 (List.append_inj' hlast rfl).2)

theorem final_concat_reporting {c : Call} {report : c.Report} :
    Final source (t ++ [reporting client c report]) :=
  final_concat fun _ _ h => by cases h

theorem final_concat_failing {error : Rest.Error} (h : q.2 ≠ .application) :
    Final source (t ++ [failing q error]) :=
  final_concat fun _ _ he => h (congrArg (·.question.2) he)

/-! ## Describing the application -/

section

variable {r : Except Error (ApplicationReport × Client)}

/-- Who is alone is asked, and that is all. -/
private theorem describe_alone (server : Client) :
    describe applicationId (.history server none) = describe applicationId (.driver server) := rfl

private theorem asks_describe_driver :
    (describe applicationId (.driver client)).run.Asks t q ↔
      t = [] ∧ q = (client, .application) := by
  refine asks_run_bind.trans ⟨?_, fun h => .inl (asks_call.2 h)⟩
  rintro (h | ⟨_, _, _, _, _, h⟩)
  · exact asks_call.1 h
  · exact h.elim

private theorem ends_describe_driver :
    (describe applicationId (.driver client)).run.Ends t r ↔
      ∃ a : Except Rest.Error ApplicationReport,
        t = [⟨(client, .application), a⟩] ∧ r = (a.mapError .api).map (·, client) := by
  refine ends_bind.trans ⟨?_, ?_⟩
  · rintro ⟨t₁, t₂, r₁, rfl, hcall, hrest⟩
    obtain ⟨a, rfl, rfl⟩ := ends_call.1 hcall
    refine ⟨a, ?_⟩
    cases a <;> (obtain ⟨rfl, rfl⟩ := hrest; exact ⟨rfl, rfl⟩)
  · rintro ⟨a, rfl, rfl⟩
    refine ⟨_, [], _, (List.append_nil _).symm, ends_call.2 ⟨a, rfl, rfl⟩, ?_⟩
    cases a <;> exact ⟨rfl, rfl⟩

/-- A history server with a driver behind it leaves the application to it when it fails. -/
private theorem asks_describe_history {server driver : Client} :
    (describe applicationId (.history server (some driver))).run.Asks t q ↔
      (t = [] ∧ q = (server, .application)) ∨ ∃ error t',
        t = failing (server, .application) error :: t' ∧
          (describe applicationId (.driver driver)).run.Asks t' q := by
  constructor
  · rintro (h | ⟨a, t', rfl, h⟩)
    · exact .inl h
    · change Except Rest.Error ApplicationReport at a
      cases a with
      | ok report => exact h.elim
      | error error => exact .inr ⟨error, t', rfl, h⟩
  · rintro (h | ⟨error, t', rfl, h⟩)
    · exact .inl h
    · exact .inr ⟨_, t', rfl, h⟩

private theorem ends_describe_history {server driver : Client} :
    (describe applicationId (.history server (some driver))).run.Ends t r ↔
      (∃ report, t = [reporting server .application report] ∧ r = .ok (report, server)) ∨
        ∃ error t', t = failing (server, .application) error :: t' ∧
          (describe applicationId (.driver driver)).run.Ends t' r := by
  constructor
  · rintro ⟨a, t', rfl, h⟩
    change Except Rest.Error ApplicationReport at a
    cases a with
    | ok report =>
      obtain ⟨rfl, rfl⟩ := h
      exact .inl ⟨report, rfl, rfl⟩
    | error error => exact .inr ⟨error, t', rfl, h⟩
  · rintro (⟨report, rfl, rfl⟩ | ⟨error, t', rfl, h⟩)
    · exact ⟨_, [], rfl, rfl, rfl⟩
    · exact ⟨_, t', rfl, h⟩

theorem asks_describe :
    (describe applicationId source).run.Asks t q ↔
      ∃ client, Reaches source t (client, .application) ∧ q = (client, .application) := by
  cases source with
  | driver client =>
    refine asks_describe_driver.trans ⟨?_, ?_⟩
    · rintro ⟨rfl, rfl⟩
      exact ⟨client, .driver, rfl⟩
    · rintro ⟨client', h, rfl⟩
      cases h
      exact ⟨rfl, rfl⟩
  | history server fallback =>
    cases fallback with
    | none =>
      rw [describe_alone]
      refine asks_describe_driver.trans ⟨?_, ?_⟩
      · rintro ⟨rfl, rfl⟩
        exact ⟨server, .server, rfl⟩
      · rintro ⟨client', h, rfl⟩
        cases h
        exact ⟨rfl, rfl⟩
    | some driver =>
      refine asks_describe_history.trans ⟨?_, ?_⟩
      · rintro (⟨rfl, rfl⟩ | ⟨error, t', rfl, h⟩)
        · exact ⟨server, .server, rfl⟩
        · obtain ⟨rfl, rfl⟩ := asks_describe_driver.1 h
          exact ⟨driver, .fallback, rfl⟩
      · rintro ⟨client', h, rfl⟩
        cases h with
        | server => exact .inl ⟨rfl, rfl⟩
        | fallback => exact .inr ⟨_, [], rfl, asks_describe_driver.2 ⟨rfl, rfl⟩⟩

theorem ends_describe :
    (describe applicationId source).run.Ends t r ↔
      ∃ t₀ client, ∃ a : Except Rest.Error ApplicationReport,
        Reaches source t₀ (client, .application) ∧ t = t₀ ++ [⟨(client, .application), a⟩] ∧
          Final source t ∧ r = (a.mapError .api).map (·, client) := by
  cases source with
  | driver client =>
    refine ends_describe_driver.trans ⟨?_, ?_⟩
    · rintro ⟨a, rfl, rfl⟩
      exact ⟨[], client, a, .driver, rfl, final_of_ne (by simp) (by simp), rfl⟩
    · rintro ⟨t₀, client', a, h, rfl, -, rfl⟩
      cases h
      exact ⟨a, rfl, rfl⟩
  | history server fallback =>
    cases fallback with
    | none =>
      rw [describe_alone]
      refine ends_describe_driver.trans ⟨?_, ?_⟩
      · rintro ⟨a, rfl, rfl⟩
        exact ⟨[], server, a, .server, rfl, final_of_ne (by simp) (by simp), rfl⟩
      · rintro ⟨t₀, client', a, h, rfl, -, rfl⟩
        cases h
        exact ⟨a, rfl, rfl⟩
    | some driver =>
      refine ends_describe_history.trans ⟨?_, ?_⟩
      · rintro (⟨report, rfl, rfl⟩ | ⟨error, t', rfl, h⟩)
        · exact ⟨[], server, .ok report, .server, rfl, final_concat_reporting (t := []), rfl⟩
        · obtain ⟨a, rfl, rfl⟩ := ends_describe_driver.1 h
          exact ⟨_, driver, a, .fallback, rfl, final_of_ne (by simp) (by simp), rfl⟩
      · rintro ⟨t₀, client', a, h, rfl, hfinal, rfl⟩
        cases h with
        | fallback => exact .inr ⟨_, _, rfl, ends_describe_driver.2 ⟨a, rfl, rfl⟩⟩
        | server =>
          cases a with
          | ok report => exact .inl ⟨report, rfl, rfl⟩
          | error error => exact (hfinal driver .fallback).elim

theorem ends_describe_ok {report : ApplicationReport} :
    (describe applicationId source).run.Ends t (.ok (report, client)) ↔
      ∃ t₀, Reaches source t₀ (client, .application) ∧
        t = t₀ ++ [reporting client .application report] := by
  rw [ends_describe]
  constructor
  · rintro ⟨t₀, client', a, hreach, rfl, -, h⟩
    cases a with
    | ok report' =>
      cases h
      exact ⟨t₀, hreach, rfl⟩
    | error error => cases h
  · rintro ⟨t₀, hreach, rfl⟩
    exact ⟨t₀, client, .ok report, hreach, rfl, final_concat_reporting, rfl⟩

theorem ends_describe_error {e : Error} :
    (describe applicationId source).run.Ends t (.error e) ↔
      ∃ t₀ client error, Reaches source t₀ (client, .application) ∧
        t = t₀ ++ [failing (client, .application) error] ∧ Final source t ∧ e = .api error := by
  rw [ends_describe]
  constructor
  · rintro ⟨t₀, client, a, hreach, rfl, hfinal, h⟩
    cases a with
    | ok report => cases h
    | error error =>
      cases h
      exact ⟨t₀, client, error, hreach, rfl, hfinal, rfl⟩
  · rintro ⟨t₀, client, error, hreach, rfl, hfinal, rfl⟩
    exact ⟨t₀, client, .error error, hreach, rfl, hfinal, rfl⟩

end

/-! ## The whole fetch -/

/-- What a fetch makes of the reports. -/
private def conclude (applicationId : String) (application : ApplicationReport)
    (environment : EnvironmentReport) (window : Window) (recorded : Option Ledger) :
    Fetch Info := do
  say .info ("Fetched '" ++ applicationId ++ "' info: " ++ toString application.attempts.length ++
    " attempt(s), " ++ toString window.length ++ " stage(s) in window")
  ExceptT.lift ((propertyLines environment.sparkProperties).foldr .note (.done ()))
  let update ← ExceptT.lift (Update.computed window recorded)
  return ⟨application.name, application.attempts.map attempt,
    flattened environment.sparkProperties, update⟩

private theorem fetch_eq_conclude :
    fetch source applicationId recorded = (do
      let (application, client) ← describe applicationId source
      let environment : EnvironmentReport ← call client .environment
      let window : Window ← call client .stages
      conclude applicationId application environment window recorded) := rfl

section

variable {application : ApplicationReport} {environment : EnvironmentReport} {window : Window}

private theorem asks_conclude :
    ¬(conclude applicationId application environment window recorded).run.Asks t q := by
  intro h
  rcases asks_run_bind.1 h with h | ⟨_, _, _, rfl, -, h⟩
  · exact asks_say h
  · rcases asks_run_bind.1 h with h | ⟨_, _, _, rfl, -, h⟩
    · exact asks_foldr_note.1 (asks_run_lift.1 h)
    · rcases asks_run_bind.1 h with h | ⟨_, _, _, rfl, -, h⟩
      · exact Update.asks_computed (asks_run_lift.1 h)
      · exact h.elim

private theorem ends_conclude {info : Info} :
    (conclude applicationId application environment window recorded).run.Ends t (.ok info) ↔
      t = [] ∧ ∃ update, Update.compute window recorded = .ok update ∧
        info = ⟨application.name, application.attempts.map attempt,
          flattened environment.sparkProperties, update⟩ := by
  constructor
  · intro h
    obtain ⟨_, _, _, rfl, hsay, h⟩ := ends_run_bind_ok.1 h
    obtain ⟨_, _, _, rfl, hlines, h⟩ := ends_run_bind_ok.1 h
    obtain ⟨_, _, update, rfl, hupdate, rfl, hinfo⟩ := ends_run_bind_ok.1 h
    obtain ⟨rfl, -⟩ := ends_say.1 hsay
    obtain ⟨_, hlines, -⟩ := ends_run_lift.1 hlines
    obtain ⟨rfl, -⟩ := ends_foldr_note.1 hlines
    obtain ⟨_, hupdate, hok⟩ := ends_run_lift.1 hupdate
    obtain ⟨rfl, hcompute⟩ := Update.ends_computed.1 hupdate
    cases hok
    cases hinfo
    exact ⟨rfl, update, hcompute, rfl⟩
  · rintro ⟨rfl, update, hcompute, rfl⟩
    refine ends_run_bind_ok.2 ⟨[], [], (), rfl, ends_say.2 ⟨rfl, rfl⟩, ?_⟩
    refine ends_run_bind_ok.2 ⟨[], [], (), rfl, ?_, ?_⟩
    · exact ends_run_lift.2 ⟨(), ends_foldr_note.2 ⟨rfl, rfl⟩, rfl⟩
    · refine ends_run_bind_ok.2 ⟨[], [], update, rfl, ?_, rfl, rfl⟩
      exact ends_run_lift.2 ⟨update, Update.ends_computed.2 ⟨rfl, hcompute⟩, rfl⟩

private theorem ends_conclude_error {e : Error} :
    ¬(conclude applicationId application environment window recorded).run.Ends t (.error e) := by
  intro h
  rcases ends_run_bind_error.1 h with h | ⟨_, _, _, rfl, -, h⟩
  · cases (ends_say.1 h).2
  · rcases ends_run_bind_error.1 h with h | ⟨_, _, _, rfl, -, h⟩
    · obtain ⟨_, -, h⟩ := ends_run_lift.1 h
      cases h
    · rcases ends_run_bind_error.1 h with h | ⟨_, _, _, rfl, -, h⟩
      · obtain ⟨_, -, h⟩ := ends_run_lift.1 h
        cases h
      · cases h.2

private theorem isInfix_of_endsSaying_conclude {info : Info} {lines : List Log.Line}
    (h : (conclude applicationId application environment window recorded).run.EndsSaying t lines
      (.ok info)) : propertyLines environment.sparkProperties <:+: lines := by
  obtain ⟨_, _, l₁, _, _, rfl, rfl, -, h₁⟩ := endsSaying_run_bind_ok h
  obtain ⟨_, _, _, l₃, _, rfl, rfl, hdropped, -⟩ := endsSaying_run_bind_ok h₁
  obtain ⟨_, _, _, l₂, _, rfl, rfl, hlines, -⟩ := endsSaying_bind hdropped
  obtain ⟨rest, rfl, -⟩ := eq_append_of_endsSaying_foldr_note hlines
  exact ⟨l₁, rest ++ l₂ ++ l₃, by simp only [List.append_assoc]⟩

/-- A fetch makes its calls in this order. -/
theorem asks_fetch :
    (fetch source applicationId recorded).run.Asks t q ↔ Reaches source t q := by
  rw [fetch_eq_conclude]
  constructor
  · intro h
    rcases asks_run_bind.1 h with h₁ | ⟨_, _, ⟨application, client⟩, rfl, hdescribe, h₁⟩
    · obtain ⟨client, hreach, rfl⟩ := asks_describe.1 h₁
      exact hreach
    obtain ⟨t₀, hreach, rfl⟩ := ends_describe_ok.1 hdescribe
    rcases asks_run_bind.1 h₁ with h₂ | ⟨_, _, environment, rfl, henvironment, h₂⟩
    · obtain ⟨rfl, rfl⟩ := asks_call.1 h₂
      rw [List.append_nil]
      exact hreach.environment
    cases ends_call_ok.1 henvironment
    rcases asks_run_bind.1 h₂ with h₃ | ⟨_, _, window, rfl, hstages, h₃⟩
    · obtain ⟨rfl, rfl⟩ := asks_call.1 h₃
      rw [List.append_nil]
      exact hreach.environment.stages
    · exact (asks_conclude h₃).elim
  · intro h
    cases h with
    | server | driver | fallback =>
      exact asks_run_bind.2 (.inl (asks_describe.2 ⟨_, by constructor, rfl⟩))
    | environment hreach =>
      refine asks_run_bind.2 (.inr ⟨_, [], _, (List.append_nil _).symm,
        ends_describe_ok.2 ⟨_, hreach, rfl⟩, ?_⟩)
      exact asks_run_bind.2 (.inl (asks_call.2 ⟨rfl, rfl⟩))
    | stages h =>
      cases h with
      | environment hreach =>
        refine asks_run_bind.2 (.inr ⟨_, _, _, rfl, ends_describe_ok.2 ⟨_, hreach, rfl⟩, ?_⟩)
        refine asks_run_bind.2 (.inr ⟨_, [], _, (List.append_nil _).symm,
          ends_call_ok.2 rfl, ?_⟩)
        exact asks_run_bind.2 (.inl (asks_call.2 ⟨rfl, rfl⟩))

/-- The calls of a fetch that succeeds. -/
theorem ends_fetch_ok {info : Info} :
    (fetch source applicationId recorded).run.Ends t (.ok info) ↔
      ∃ t₀ client application, ∃ environment : EnvironmentReport, ∃ window update,
        Reaches source t₀ (client, .application) ∧
          t = t₀ ++ [reporting client .application application,
            reporting client .environment environment, reporting client .stages window] ∧
          Update.compute window recorded = .ok update ∧
          info = ⟨application.name, application.attempts.map attempt,
            flattened environment.sparkProperties, update⟩ := by
  rw [fetch_eq_conclude]
  constructor
  · intro h
    obtain ⟨_, _, ⟨application, client⟩, rfl, hdescribe, h₁⟩ := ends_run_bind_ok.1 h
    obtain ⟨_, _, environment, rfl, henvironment, h₂⟩ := ends_run_bind_ok.1 h₁
    obtain ⟨_, _, window, rfl, hstages, h₃⟩ := ends_run_bind_ok.1 h₂
    obtain ⟨t₀, hreach, rfl⟩ := ends_describe_ok.1 hdescribe
    cases ends_call_ok.1 henvironment
    cases ends_call_ok.1 hstages
    obtain ⟨rfl, update, hcompute, hinfo⟩ := ends_conclude.1 h₃
    refine ⟨t₀, client, application, environment, window, update, hreach, ?_, hcompute, hinfo⟩
    simp
  · rintro ⟨t₀, client, application, environment, window, update, hreach, rfl, hcompute, hinfo⟩
    refine ends_run_bind_ok.2 ⟨_, _, _, (List.append_assoc t₀ [_] _).symm,
      ends_describe_ok.2 ⟨t₀, hreach, rfl⟩, ?_⟩
    refine ends_run_bind_ok.2 ⟨[_], _, _, rfl, ends_call_ok.2 rfl, ?_⟩
    refine ends_run_bind_ok.2 ⟨[_], _, _, rfl, ends_call_ok.2 rfl, ?_⟩
    exact ends_conclude.2 ⟨rfl, update, hcompute, hinfo⟩

/-- A fetch that succeeds has written a line on each tuple that it drops. -/
theorem propertyLines_isInfix {info : Info} {lines : List Log.Line}
    (h : (fetch source applicationId recorded).run.EndsSaying t lines (.ok info))
    (he : reporting client .environment environment ∈ t) :
    propertyLines environment.sparkProperties <:+: lines := by
  rw [fetch_eq_conclude] at h
  obtain ⟨t₁, _, l₁, _, ⟨application, server⟩, rfl, rfl, hdescribe, h₁⟩ := endsSaying_run_bind_ok h
  obtain ⟨t₂, _, l₂, _, environment', rfl, rfl, henvironment, h₂⟩ := endsSaying_run_bind_ok h₁
  obtain ⟨t₃, t₄, l₃, l₄, window, rfl, rfl, hstages, h₃⟩ := endsSaying_run_bind_ok h₂
  obtain ⟨t₀, hreach, rfl⟩ := ends_describe_ok.1 (ends_iff_exists_endsSaying.2 ⟨_, hdescribe⟩)
  cases ends_call_ok.1 (ends_iff_exists_endsSaying.2 ⟨_, henvironment⟩)
  cases ends_call_ok.1 (ends_iff_exists_endsSaying.2 ⟨_, hstages⟩)
  obtain ⟨rfl, -⟩ := ends_conclude.1 (ends_iff_exists_endsSaying.2 ⟨_, h₃⟩)
  have heq : environment = environment' := by
    simp only [List.mem_append, List.mem_singleton, List.not_mem_nil, or_false] at he
    rcases he with (he | he) | he | he
    · cases call_of_reaches hreach _ he
    · cases he
    · cases he
      rfl
    · cases he
  rw [heq]
  exact (isInfix_of_endsSaying_conclude h₃).trans
    ⟨l₁ ++ l₂ ++ l₃, [], by simp only [List.append_assoc, List.append_nil]⟩

/-- A fetch that fails does so for its last call. -/
theorem ends_fetch_error {e : Error} :
    (fetch source applicationId recorded).run.Ends t (.error e) ↔
      ∃ t₀ q error, Reaches source t₀ q ∧ t = t₀ ++ [failing q error] ∧ Final source t ∧
        e = .api error := by
  rw [fetch_eq_conclude]
  constructor
  · intro h
    rcases ends_run_bind_error.1 h with h₁ | ⟨_, _, ⟨application, client⟩, rfl, hdescribe, h₁⟩
    · obtain ⟨t₀, client, error, hreach, rfl, hfinal, rfl⟩ := ends_describe_error.1 h₁
      exact ⟨t₀, _, error, hreach, rfl, hfinal, rfl⟩
    obtain ⟨t₀, hreach, rfl⟩ := ends_describe_ok.1 hdescribe
    rcases ends_run_bind_error.1 h₁ with h₂ | ⟨_, _, environment, rfl, henvironment, h₂⟩
    · obtain ⟨error, rfl, rfl⟩ := ends_call_error.1 h₂
      exact ⟨_, _, error, hreach.environment, rfl, final_concat_failing nofun, rfl⟩
    cases ends_call_ok.1 henvironment
    rcases ends_run_bind_error.1 h₂ with h₃ | ⟨_, _, window, rfl, hstages, h₃⟩
    · obtain ⟨error, rfl, rfl⟩ := ends_call_error.1 h₃
      rw [← List.append_assoc]
      exact ⟨_, _, error, hreach.environment.stages, rfl, final_concat_failing nofun, rfl⟩
    · exact (ends_conclude_error h₃).elim
  · rintro ⟨t₀, q, error, h, rfl, hfinal, rfl⟩
    cases h with
    | server | driver | fallback =>
      refine ends_run_bind_error.2 (.inl (ends_describe_error.2 ⟨_, _, error, ?_, rfl, hfinal,
        rfl⟩))
      constructor
    | environment hreach =>
      refine ends_run_bind_error.2 (.inr ⟨_, _, _, rfl, ends_describe_ok.2 ⟨_, hreach, rfl⟩, ?_⟩)
      exact ends_run_bind_error.2 (.inl (ends_call_error.2 ⟨error, rfl, rfl⟩))
    | stages h =>
      cases h with
      | environment hreach =>
        refine ends_run_bind_error.2 (.inr ⟨_, _, _, List.append_assoc .., ends_describe_ok.2
          ⟨_, hreach, rfl⟩, ?_⟩)
        refine ends_run_bind_error.2 (.inr ⟨_, _, _, rfl, ends_call_ok.2 rfl, ?_⟩)
        exact ends_run_bind_error.2 (.inl (ends_call_error.2 ⟨error, rfl, rfl⟩))

end

/-! ## Reported windows -/

/-- A fetch that reports these stages can come to this info. -/
def Fetched (applicationId : String) (recorded : Option Ledger) (window : Window) (info : Info) :
    Prop :=
  ∃ source t client, (fetch source applicationId recorded).run.Ends t (.ok info) ∧
    ⟨(client, .stages), (.ok window : Except Rest.Error Window)⟩ ∈ t

theorem compute_of_fetched {window : Window} {info : Info}
    (h : Fetched applicationId recorded window info) :
    Update.compute window recorded = .ok info.update := by
  obtain ⟨source, t, client, hfetch, hmem⟩ := h
  obtain ⟨t₀, client', application, environment, window', update, hreach, rfl, hcompute, rfl⟩ :=
    ends_fetch_ok.1 hfetch
  rcases List.mem_append.1 hmem with hmem | hmem
  · cases call_of_reaches hreach _ hmem
  · simp only [List.mem_cons, List.not_mem_nil, or_false] at hmem
    rcases hmem with hmem | hmem | hmem
    · cases hmem
    · cases hmem
    · cases hmem
      exact hcompute

end Info

end SparkLedger

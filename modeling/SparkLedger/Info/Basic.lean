import SparkLedger.Rest.Client
import SparkLedger.Stage.Update
import SparkLedger.Text.Quoted

/-!
# Info on an application

The normalized view of an application, assembled from the Spark API: its name, attempts and
properties, and the update of its totals. The history server is preferred, and the driver takes
over once if the history server cannot describe the application; environment and stages come
from whoever described it.
-/

namespace SparkLedger

/-- What is known of an application after a successful fetch. -/
structure Info where
  applicationName : String
  attempts : List Application.Attempt
  properties : SortedMap String String
  update : Update

namespace Info

open Rest (Client Call ApplicationReport AttemptReport Tuples)

/-- Why there is no info. -/
inductive Error where
  /-- Nobody serves the API. -/
  | noClient
  | api (error : Rest.Error)
  deriving DecidableEq

/-- What an error says. -/
def Error.message : Error → String
  | .noClient => "Could not get spark api client!"
  | .api error => "Spark API call failed! Reason: " ++ error.message

/-! ## Properties -/

/-- The properties of those tuples that are a key and a value; the later of two values counts. -/
def flattened (tuples : Tuples) : SortedMap String String :=
  .ofList (tuples.filterMap fun
    | [key, value] => some (key, value)
    | _ => none)

/-- The lines on tuples that are dropped. -/
def propertyLines (tuples : Tuples) : List Log.Line :=
  (tuples.filter (·.length ≠ 2)).map fun tuple =>
    ⟨.warn, "Dropping malformed spark property " ++ Text.quotedList tuple⟩

/-- What is recorded of an attempt. -/
def attempt (r : AttemptReport) : Application.Attempt :=
  ⟨r.startTime, r.endTime, r.lastUpdated, r.completed, r.sparkVersion⟩

/-! ## Sources -/

/-- Who can describe an application. -/
inductive Source where
  /-- The history server, and the driver behind it if there is one. -/
  | history (server : Client) (fallback : Option Client)
  | driver (client : Client)
  deriving DecidableEq

/-- The source of the clients there are. -/
def Source.ofClients? : Option Client → Option Client → Option Source
  | some server, fallback => some (.history server fallback)
  | none, some client => some (.driver client)
  | none, none => none

/-- Asks clients for reports on one application. -/
def Calling : Interface where
  Question := Client × Call
  Answer q := Except Rest.Error q.2.Report

/-- A conversation with clients that may fail. -/
abbrev Fetch := ExceptT Error (Dialogue Calling)

/-- Makes a call that has to succeed. -/
def call (client : Client) (call : Call) : Fetch call.Report :=
  ExceptT.mk do
    let report : Except Rest.Error call.Report ← .question (I := Calling) (client, call)
    return report.mapError .api

/-- Makes a call that may fail. -/
def tryCall (client : Client) (call : Call) : Fetch (Except Rest.Error call.Report) :=
  ExceptT.lift (.question (I := Calling) (client, call))

/-- Writes a log line. -/
def say (level : Log.Level) (text : String) : Fetch Unit := ExceptT.lift (.log level text)

/-- The application and who described it. -/
def describe (applicationId : String) : Source → Fetch (ApplicationReport × Client)
  | .driver client => do
    let report ← call client .application
    return (report, client)
  | .history server none => do
    let report ← call server .application
    return (report, server)
  | .history server (some driver) => do
    match ← tryCall server .application with
    | .ok report => return (report, server)
    | .error error =>
      say .warn ("History server couldn't describe '" ++ applicationId ++
        "', falling back to the driver! Reason: " ++ error.message)
      let report ← call driver .application
      return (report, driver)

/-- The info on an application, given the ledger recorded for it. -/
def fetch (source : Source) (applicationId : String) (recorded : Option Ledger) : Fetch Info := do
  let (application, client) ← describe applicationId source
  let environment : Rest.EnvironmentReport ← call client .environment
  let stages : Window ← call client .stages
  say .info ("Fetched '" ++ applicationId ++ "' info: " ++ toString application.attempts.length ++
    " attempt(s), " ++ toString stages.length ++ " stage(s) in window")
  ExceptT.lift ((propertyLines environment.sparkProperties).foldr .note (.done ()))
  let update ← ExceptT.lift (Update.computed stages recorded)
  return ⟨application.name, application.attempts.map attempt,
    flattened environment.sparkProperties, update⟩

end Info

end SparkLedger

import SparkLedger.Dialogue
import SparkLedger.Rest.Endpoint
import SparkLedger.Rest.Error
import SparkLedger.Rest.Report

/-!
# Calls to the Spark API

A client knows who serves the API and where. A call fetches the body of its path and reads the
report in it.
-/

namespace SparkLedger.Rest

/-- Who serves an API. -/
inductive Origin where
  | driver
  | history
  deriving DecidableEq, Repr

/-- The server as messages name it. -/
def Origin.shown : Origin → String
  | .driver => "driver"
  | .history => "history server"

/-- A server of the API and where it is reached. -/
structure Client where
  origin : Origin
  endpoint : Endpoint
  deriving DecidableEq

/-- Asks an endpoint for the body of a path. -/
def Fetching : Interface where
  Question := Endpoint × String
  Answer _ := Except TransportError ByteArray

/-- The path of an application. -/
def applicationPath (applicationId : String) : String := "api/v1/applications/" ++ applicationId

/-- What can be asked of an application. -/
inductive Call where
  | application
  | environment
  | stages
  | executors
  | streaming
  /-- The metrics of the driver itself, whatever the application. -/
  | metrics
  deriving DecidableEq, Repr

/-- The path of a call. -/
def Call.path (applicationId : String) : Call → String
  | .application => applicationPath applicationId
  | .environment => applicationPath applicationId ++ "/environment"
  | .stages => applicationPath applicationId ++ "/stages"
  | .executors => applicationPath applicationId ++ "/allexecutors"
  | .streaming => applicationPath applicationId ++ "/streaming/statistics"
  | .metrics => "metrics/json"

/-- What a call reports. -/
def Call.Report : Call → Type
  | .application => ApplicationReport
  | .environment => EnvironmentReport
  | .stages => Window
  | .executors => List ExecutorReport
  | .streaming => StreamingReport
  | .metrics => Json

/-- Reads the report of a call. -/
def Call.read? : (call : Call) → Json → Option call.Report
  | .application => ApplicationReport.ofJson?
  | .environment => EnvironmentReport.ofJson?
  | .stages => Window.ofJson?
  | .executors => Json.asList? ExecutorReport.ofJson?
  | .streaming => StreamingReport.ofJson?
  | .metrics => Json.normal?

namespace Client

/-- Makes a call. -/
def call (c : Client) (applicationId : String) (call : Call) :
    Dialogue Fetching (Except Error call.Report) := do
  let path := call.path applicationId
  .log .debug ("Querying " ++ c.origin.shown ++ " (" ++ c.endpoint.shown ++ ") for '" ++ path ++
    "'")
  let body : Except TransportError ByteArray ←
    .question (I := Fetching) (c.endpoint, path)
  match body with
  | .error e => return .error (.transport e)
  | .ok bytes =>
    match Json.ofBytes? bytes >>= call.read? with
    | some report => return .ok report
    | none => return .error (.undecodable path)

end Client

end SparkLedger.Rest

import SparkLedger.Ranged
import SparkLedger.Text.Blank
import SparkLedger.Text.Quoted

/-!
# Settings

What the environment sets, and the defaults of what it leaves open. The first variable that
cannot be read decides the error; they are looked at in the order of `load`.
-/

namespace SparkLedger

/-- The settings of the tracker. -/
structure Settings where
  /-- The namespace to watch; all of them if none. -/
  ns : Option String
  /-- How long a call to the Spark API may take. -/
  apiTimeout : Seconds
  /-- How long to wait before a running driver is looked at again. -/
  runningRequeue : Seconds
  driverPort : Port
  historyPort : Port
  /-- Selects the services of history servers. -/
  historySelector : String
  /-- Whether pods and services are addressed directly instead of through the proxy. -/
  directHttp : Bool
  deriving DecidableEq

namespace Settings

/-- The settings of an empty environment. -/
def standard : Settings where
  ns := none
  apiTimeout := .ten
  runningRequeue := .ten
  driverPort := ⟨4040, by decide, by decide⟩
  historyPort := ⟨18080, by decide, by decide⟩
  historySelector := "app.kubernetes.io/name=spark-history-server"
  directHttp := false

/-- What the environment gives a variable. -/
inductive Value where
  | absent
  | text (s : String)
  /-- Bytes that are no text. -/
  | bytes (b : ByteArray)

/-- Why settings could not be read. -/
inductive Error where
  /-- A value is no text. -/
  | notText (value : ByteArray)
  /-- The value of a variable cannot be read. -/
  | invalid (variable_ : String)

/-- What an error says. -/
def Error.message : Error → String
  | .notText value =>
    "Env var unavailable: environment variable was not valid unicode: " ++ Text.quotedBytes value
  | .invalid variable_ => "'" ++ variable_ ++ "' couldn't be parsed!"

/-- The environment. -/
abbrev Lookup := String → Value

/-- The text of a variable, if it is set. -/
def text? (lookup : Lookup) (variable_ : String) : Except Error (Option String) :=
  match lookup variable_ with
  | .absent => .ok none
  | .text s => .ok (some s)
  | .bytes b => .error (.notText b)

/-- The value of a variable, if it is set; blanks around it do not count. -/
def parsed? {α : Type} (parse : List Char → Option α) (lookup : Lookup) (variable_ : String) :
    Except Error (Option α) := do
  match ← text? lookup variable_ with
  | none => return none
  | some s =>
    match parse (Text.trim s.toList) with
    | some a => return some a
    | none => throw (.invalid variable_)

/-- An unsigned number of a range. -/
def number? {hi : Int} (cs : List Char) : Option (Ranged 0 hi) :=
  Text.natural? cs >>= fun n => Ranged.ofInt? n

/-- A truth value. -/
def truth? (cs : List Char) : Option Bool :=
  if cs = "true".toList then some true
  else if cs = "false".toList then some false
  else none

/-- Reads the settings. An empty namespace is none. -/
def load (lookup : Lookup) : Except Error Settings := do
  let ns ← text? lookup "SPARK_TRACKER_NAMESPACE"
  let apiTimeout ← parsed? number? lookup "SPARK_TRACKER_API_TIMEOUT_SECS"
  let runningRequeue ← parsed? number? lookup "SPARK_TRACKER_RUNNING_REQUEUE_SECS"
  let driverPort ← parsed? number? lookup "SPARK_TRACKER_DRIVER_UI_PORT"
  let historyPort ← parsed? number? lookup "SPARK_TRACKER_HISTORY_SERVER_PORT"
  let historySelector ← text? lookup "SPARK_TRACKER_HISTORY_SERVER_SELECTOR"
  let directHttp ← parsed? truth? lookup "SPARK_TRACKER_DIRECT_HTTP"
  return {
    ns := ns.filter (· ≠ "")
    apiTimeout := apiTimeout.getD standard.apiTimeout
    runningRequeue := runningRequeue.getD standard.runningRequeue
    driverPort := driverPort.getD standard.driverPort
    historyPort := historyPort.getD standard.historyPort
    historySelector := historySelector.getD standard.historySelector
    directHttp := directHttp.getD standard.directHttp }

end Settings

end SparkLedger

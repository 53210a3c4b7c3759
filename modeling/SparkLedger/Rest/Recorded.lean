import SparkLedger.Rest.Client

/-!
# Recorded answers

Endpoints under a name whose bodies were recorded beforehand. Holding a dialogue with them keeps
what was asked and logged. What was not recorded cannot be asked for.
-/

namespace SparkLedger.Rest

/-- What was recorded for a path. -/
inductive Recorded where
  | body (bytes : ByteArray)
  /-- No answer in time. -/
  | late (limit : Seconds)

/-- Recorded answers by endpoint name and path, and what was asked and logged so far. -/
structure Recording where
  answers : SortedMap String (SortedMap String Recorded)
  asked : List (String × String)
  log : List Log.Line

namespace Recording

/-- Recorded answers before anything is asked. -/
def start (answers : SortedMap String (SortedMap String Recorded)) : Recording := ⟨answers, [], []⟩

/-- What a name and a path give. -/
def find (r : Recording) (name path : String) : Except TransportError ByteArray :=
  match r.answers.find? name >>= (·.find? path) with
  | some (.body bytes) => .ok bytes
  | some (.late limit) => .error (.timeout path limit)
  | none => .error (.invalidRequest path)

/-- Answers a question. -/
def answer : (q : Fetching.Question) → Recording → Option (Fetching.Answer q) × Recording
  | (.recorded name, path), r =>
    (some (r.find name path), { r with asked := r.asked ++ [(name, path)] })
  | (_, path), r => (some (.error (.invalidRequest path)), r)

/-- The recording as an environment. -/
def environment : Dialogue.Environment Fetching Recording :=
  ⟨answer, fun line r => { r with log := r.log ++ [line] }⟩

/-- Holds a dialogue. -/
def hold {α : Type} (d : Dialogue Fetching α) (r : Recording) : Dialogue.Ending α × Recording :=
  Dialogue.hold environment d r

end Recording

end SparkLedger.Rest

import SparkLedger.Json.Record

/-!
# Stages and their metrics

A stage as one poll lists it, its status, and the three counters kept of it. Counters are added
and subtracted one by one in the order output, input, processor time, each step checked.

* `Status.isFinalized`: a finalized stage reports the same metrics for good.
* `Metrics.add_eq_ok_iff`, `Metrics.sub_eq_ok_iff`: the checked operations are the exact ones
  wherever they succeed.
-/

namespace SparkLedger.Stage

/-! ## Status -/

/-- The status of a stage. -/
inductive Status where
  | active
  | complete
  | pending
  | failed
  | skipped
  /-- Any status that is not known here. -/
  | unknown
  deriving DecidableEq, Repr

namespace Status

/-- The status of a name; every other name is the unknown status. -/
def ofName (s : String) : Status :=
  if s = "ACTIVE" then .active
  else if s = "COMPLETE" then .complete
  else if s = "PENDING" then .pending
  else if s = "FAILED" then .failed
  else if s = "SKIPPED" then .skipped
  else .unknown

/-- Whether a stage of this status reports the same metrics for good. -/
def isFinalized : Status → Bool
  | .complete => true
  | .failed => true
  | .skipped => true
  | _ => false

/-- The word for a status. -/
def word : Status → String
  | .active => "Active"
  | .complete => "Complete"
  | .pending => "Pending"
  | .failed => "Failed"
  | .skipped => "Skipped"
  | .unknown => "Unknown"

/-- Reads a status. -/
def ofJson? (j : Json) : Option Status := j.asName? (some ∘ ofName)

end Status

/-! ## Metrics -/

/-- The counters of a stage, or sums and differences of them. -/
@[ext]
structure Metrics where
  outputBytes : Signed64
  inputBytes : Signed64
  cpuTime : Signed64
  deriving DecidableEq

namespace Metrics

instance : Zero Metrics := ⟨⟨0, 0, 0⟩⟩

instance : Inhabited Metrics := ⟨0⟩

/-- The sum, counter by counter. -/
def add (a b : Metrics) : Except Overflow Metrics := do
  let outputBytes ← a.outputBytes.add b.outputBytes
  let inputBytes ← a.inputBytes.add b.inputBytes
  let cpuTime ← a.cpuTime.add b.cpuTime
  return ⟨outputBytes, inputBytes, cpuTime⟩

/-- The difference, counter by counter. -/
def sub (a b : Metrics) : Except Overflow Metrics := do
  let outputBytes ← a.outputBytes.sub b.outputBytes
  let inputBytes ← a.inputBytes.sub b.inputBytes
  let cpuTime ← a.cpuTime.sub b.cpuTime
  return ⟨outputBytes, inputBytes, cpuTime⟩

/-- The record of metrics. -/
def toJson (m : Metrics) : Json :=
  .obj [("cpuTime", .int m.cpuTime.val), ("inputBytes", .int m.inputBytes.val),
    ("outputBytes", .int m.outputBytes.val)]

/-- Reads a record of metrics. -/
def ofJson? : Json → Option Metrics := Json.Record.read do
  let outputBytes ← .required "outputBytes" Json.asRanged?
  let inputBytes ← .required "inputBytes" Json.asRanged?
  let cpuTime ← .required "cpuTime" Json.asRanged?
  return ⟨outputBytes, inputBytes, cpuTime⟩

theorem add_eq_ok_iff {a b c : Metrics} :
    a.add b = .ok c ↔
      c.outputBytes.val = a.outputBytes.val + b.outputBytes.val ∧
      c.inputBytes.val = a.inputBytes.val + b.inputBytes.val ∧
      c.cpuTime.val = a.cpuTime.val + b.cpuTime.val := by
  simp only [add, Checked.bind_eq_ok_iff, Signed64.add_eq_ok_iff]
  constructor
  · rintro ⟨o, ho, i, hi, t, ht, h⟩
    cases h
    exact ⟨ho, hi, ht⟩
  · rintro ⟨ho, hi, ht⟩
    exact ⟨_, ho, _, hi, _, ht, rfl⟩

theorem sub_eq_ok_iff {a b c : Metrics} :
    a.sub b = .ok c ↔
      c.outputBytes.val = a.outputBytes.val - b.outputBytes.val ∧
      c.inputBytes.val = a.inputBytes.val - b.inputBytes.val ∧
      c.cpuTime.val = a.cpuTime.val - b.cpuTime.val := by
  simp only [sub, Checked.bind_eq_ok_iff, Signed64.sub_eq_ok_iff]
  constructor
  · rintro ⟨o, ho, i, hi, t, ht, h⟩
    cases h
    exact ⟨ho, hi, ht⟩
  · rintro ⟨ho, hi, ht⟩
    exact ⟨_, ho, _, hi, _, ht, rfl⟩

end Metrics

end SparkLedger.Stage

namespace SparkLedger

open Stage in
/-- A stage attempt as one poll lists it. -/
structure Stage where
  status : Status
  /-- The id of the stage, which all its attempts share. -/
  id : Signed64
  /-- The number of the attempt. -/
  attempt : Signed64
  name : String
  taskCount : Signed64
  inputBytes : Signed64
  outputBytes : Signed64
  cpuTime : Signed64
  deriving DecidableEq

namespace Stage

/-- The counters of a stage. -/
def metrics (s : Stage) : Metrics := ⟨s.outputBytes, s.inputBytes, s.cpuTime⟩

/-- Whether the stage is finalized. -/
def isFinalized (s : Stage) : Bool := s.status.isFinalized

/-- Reads a stage of a poll; what is missing is zero, empty or unknown. -/
def ofJson? : Json → Option Stage := Json.Record.read do
  let status ← .defaulted "status" Status.ofJson? .unknown
  let id ← .defaulted "stageId" Json.asRanged? 0
  let attempt ← .defaulted "attemptId" Json.asRanged? 0
  let name ← .defaulted "name" Json.asString? ""
  let taskCount ← .defaulted "numTasks" Json.asRanged? 0
  let inputBytes ← .defaulted "inputBytes" Json.asRanged? 0
  let outputBytes ← .defaulted "outputBytes" Json.asRanged? 0
  let cpuTime ← .defaulted "executorCpuTime" Json.asRanged? 0
  return ⟨status, id, attempt, name, taskCount, inputBytes, outputBytes, cpuTime⟩

end Stage

/-- The stages that one poll lists, in no particular order. -/
abbrev Window := List Stage

/-- Reads the stages of a poll. -/
def Window.ofJson? : Json → Option Window := Json.asList? Stage.ofJson?

end SparkLedger

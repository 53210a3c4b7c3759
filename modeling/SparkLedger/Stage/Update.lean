import SparkLedger.Dialogue
import SparkLedger.Stage.Ledger
import SparkLedger.Application.Statistics

/-!
# Updates of the run totals

How a poll changes the recorded statistics: without a recorded ledger the totals become the sum of
the window, with one they advance by what the ledger gains. The lines that a count writes to the
log are a function of its input, so the count itself is plain arithmetic.

* `Update.computed`: the count as part of a dialogue, lines first.
-/

namespace SparkLedger

open Stage (Metrics)
open Application (Statistics)

/-- How the stage metrics of a poll go into the statistics. -/
inductive Update where
  /-- The totals of a window seen first. -/
  | full (totals : Metrics) (ledger : Ledger)
  /-- What the recorded ledger gained. -/
  | incremental (delta : Metrics) (ledger : Ledger)
  deriving DecidableEq

namespace Update

/-- The ledger to record. -/
def ledger : Update → Ledger
  | .full _ l => l
  | .incremental _ l => l

/-- The update by a window, given the recorded ledger. -/
def compute (w : Window) : Option Ledger → Except Overflow Update
  | some l => do
    let a ← l.aggregate w
    return .incremental a.delta a.ledger
  | none => do
    let totals ← w.total
    let l ← Ledger.ofWindow w
    return .full totals l

/-- The statistics after an update: input, output, then processor time, each sum checked. -/
def apply (s : Statistics) : Update → Except Overflow Statistics
  | .full totals _ =>
    .ok { s with
      totalInputBytes := totals.inputBytes
      totalOutputBytes := totals.outputBytes
      totalCpuTime := totals.cpuTime }
  | .incremental delta _ => do
    let totalInputBytes ← s.totalInputBytes.add delta.inputBytes
    let totalOutputBytes ← s.totalOutputBytes.add delta.outputBytes
    let totalCpuTime ← s.totalCpuTime.add delta.cpuTime
    return ⟨totalInputBytes, totalOutputBytes, totalCpuTime, s.attempts⟩

end Update

/-! ## The log of a count -/

namespace Ledger

/-- The id of a stage, if there is one, as messages show it. -/
def shownId : Option Stage → String
  | some s => "Some(" ++ toString s.id.val ++ ")"
  | none => "None"

/-- The line on a lost stage. -/
def gapLine (stages : List Stage) (gap : Signed64) : Log.Line :=
  ⟨.error, "Stage " ++ toString gap.val ++ " is missing from the window " ++
    shownId stages.head? ++ "..=" ++ shownId stages.getLast? ++
    ", metrics of stages that left the window unobserved are lost!"⟩

/-- The line in front of a count. -/
def foldLine (l : Ledger) (stages : List Stage) : Log.Line :=
  ⟨.debug, "Aggregating stage window: " ++ toString (stages.countP (·.isFinalized)) ++
    " finalized, " ++ toString (stages.countP (!·.isFinalized)) ++
    " active, last processed finalized stage " ++ toString l.watermark.val⟩

/-- The lines of a count. -/
def aggregateLines (l : Ledger) (w : Window) : List Log.Line :=
  match l.gap? w.latest with
  | .error _ => []
  | .ok gap => (gap.map (gapLine w.latest)).toList ++ [l.foldLine w.latest]

/-- The lines of the count of a window seen first. -/
def firstLines (w : Window) : List Log.Line := [empty.foldLine w.latest]

end Ledger

namespace Update

/-- The lines of an update. -/
def lines (w : Window) : Option Ledger → List Log.Line
  | some l => l.aggregateLines w
  | none =>
    match w.total with
    | .error _ => []
    | .ok _ => Ledger.firstLines w

/-- The update as part of a dialogue. -/
def computed {I : Interface} (w : Window) (recorded : Option Ledger) : Dialogue I Update :=
  (lines w recorded).foldr .note (.checked (compute w recorded))

end Update

end SparkLedger

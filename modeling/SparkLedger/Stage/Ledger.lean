import SparkLedger.Json.Arrangement
import SparkLedger.Stage.Basic
import SparkLedger.Text.Decimal

/-!
# The ledger of stages

The Spark API lists only its most recent stages, in no order, and a stage may be active in one
poll and finalized in a later one. A ledger remembers what was counted, so that each poll adds
only what is new:

* every finalized stage with an id up to the watermark is counted in full, unless the ledger
  still has it as active;
* `active` holds what was counted of stages that were not finalized in the last poll.

`Window.latest` picks the attempts that count, `Ledger.fold` adds a window to a ledger, and
`Ledger.gap?` tells whether a stage has left the window before it was ever seen.
-/

namespace SparkLedger

/-! ## The attempts that count -/

namespace Window

/-- Puts a stage under its id, unless an attempt as late is there already. -/
def keepLatest (kept : SortedMap Signed64 Stage) (s : Stage) : SortedMap Signed64 Stage :=
  match kept.find? s.id with
  | some seen => if s.attempt.val ≤ seen.attempt.val then kept else kept.insert s.id s
  | none => kept.insert s.id s

/-- The latest attempt of every stage, by ascending id; of equal attempts the one listed first. -/
def latest (w : Window) : List Stage := (w.foldl keepLatest .empty).values

/-- The sum over the latest attempts, whatever was counted before. -/
def total (w : Window) : Except Overflow Stage.Metrics :=
  w.latest.foldlM (fun t s => t.add s.metrics) 0

end Window

/-! ## Ledgers -/

/-- What has been counted of the stages seen so far. -/
@[ext]
structure Ledger where
  /-- The largest id of a finalized stage counted. -/
  watermark : Signed64
  /-- What was counted of stages that were not finalized. -/
  active : SortedMap Signed64 Stage.Metrics
  deriving DecidableEq

namespace Ledger

/-- The watermark of a ledger that has seen no finalized stage. -/
def noStage : Signed64 := ⟨-1, by decide, by decide⟩

/-- The ledger that has seen nothing. -/
def empty : Ledger := ⟨noStage, .empty⟩

instance : Inhabited Ledger := ⟨empty⟩

/-- What an update adds, and the ledger after it. -/
@[ext]
structure Advance where
  delta : Stage.Metrics
  ledger : Ledger
  deriving DecidableEq

/-- What the ledger has counted of a stage that was not finalized. -/
def counted (l : Ledger) (s : Stage) : Stage.Metrics := (l.active.find? s.id).getD 0

/-- Whether the ledger has counted a finalized stage in full. -/
def settled (l : Ledger) (s : Stage) : Bool :=
  s.id.val ≤ l.watermark.val && !l.active.contains s.id

/-- Adds what a stage has beyond what the ledger counted of it. -/
def gain (l : Ledger) (delta : Stage.Metrics) (s : Stage) : Except Overflow Stage.Metrics := do
  let new ← s.metrics.sub (l.counted s)
  delta.add new

/-- The larger of two ids. -/
def later (a b : Signed64) : Signed64 := if a.val < b.val then b else a

/-- Counts a finalized stage, unless that is done. -/
def countFinalized (l : Ledger) (sum : Stage.Metrics × Signed64) (s : Stage) :
    Except Overflow (Stage.Metrics × Signed64) :=
  if l.settled s then .ok sum
  else do
    let delta ← l.gain sum.1 s
    return (delta, later sum.2 s.id)

/-- Counts a stage that is not finalized, and notes what was counted. -/
def countActive (l : Ledger) (sum : Stage.Metrics × SortedMap Signed64 Stage.Metrics) (s : Stage) :
    Except Overflow (Stage.Metrics × SortedMap Signed64 Stage.Metrics) := do
  let delta ← l.gain sum.1 s
  return (delta, sum.2.insert s.id s.metrics)

/-- Counts the latest attempts of a window: the finalized stages first, then the others. -/
def fold (l : Ledger) (stages : List Stage) : Except Overflow Advance := do
  let (delta, watermark) ←
    (stages.filter (·.isFinalized)).foldlM l.countFinalized (0, l.watermark)
  let (delta, active) ←
    (stages.filter (!·.isFinalized)).foldlM l.countActive (delta, .empty)
  return ⟨delta, ⟨watermark, active⟩⟩

/-- The first stage behind the watermark, if the window is past it and does not list it. -/
def gap? (l : Ledger) (stages : List Stage) : Except Overflow (Option Signed64) := do
  let expected ← l.watermark.add ⟨1, by decide, by decide⟩
  let movedPast := stages.any fun s => s.isFinalized && l.watermark.val < s.id.val
  let observed := stages.any fun s => s.id == expected
  return if movedPast && !observed then some expected else none

/-- A window counted into a ledger, with the stage it lost. -/
structure Aggregation extends Advance where
  gap : Option Signed64
  deriving DecidableEq

/-- Counts a window. A stage that was lost is lost; the rest counts as ever. -/
def aggregate (l : Ledger) (w : Window) : Except Overflow Aggregation := do
  let gap ← l.gap? w.latest
  let a ← l.fold w.latest
  return ⟨a, gap⟩

/-- The ledger of a window that is seen first, every stage in it counted. -/
def ofWindow (w : Window) : Except Overflow Ledger := do
  let a ← empty.fold w.latest
  return a.ledger

/-! ## Records -/

/-- The text of an id as the key of an active stage. -/
def key (id : Signed64) : String := Text.Decimal.text id.val

/-- The id whose key this is. -/
def ofKey? (s : String) : Option Signed64 := Text.Decimal.ofText? s >>= Ranged.ofInt?

/-- The record of a ledger. -/
def toJson (l : Ledger) : Json :=
  .obj [
    ("activeStageMetrics",
      .ofMap Stage.Metrics.toJson (.ofList (l.active.toList.map fun (id, m) => (key id, m)))),
    ("maxProcessedFinalizedStageId", .int l.watermark.val)]

/-- The order in which the members of a ledger are shown. -/
def arrangement : Json.Arrangement :=
  .record [("maxProcessedFinalizedStageId", .plain),
    ("activeStageMetrics", .numbered (.ofFields ["outputBytes", "inputBytes", "cpuTime"]))]

/-- Reads a record of a ledger. -/
def ofJson? : Json → Option Ledger := Json.Record.read do
  let watermark ← .defaulted "maxProcessedFinalizedStageId" Json.asRanged? noStage
  let active ← .defaulted "activeStageMetrics" (Json.asMap? ofKey? Stage.Metrics.ofJson?) .empty
  return ⟨watermark, active⟩

end Ledger

end SparkLedger

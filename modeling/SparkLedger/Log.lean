import SparkLedger.Text.Redaction

/-!
# Log lines

A line has a level and a text. A reader of the log chooses the least level to show, and sees
causes that were worded elsewhere only as a mark.
-/

namespace SparkLedger.Log

/-- How much a line matters. -/
inductive Level where
  | error
  | warn
  | info
  | debug
  | trace
  deriving DecidableEq, Repr

namespace Level

/-- The place of a level, the one that matters most first. -/
def rank : Level → Nat
  | .error => 0
  | .warn => 1
  | .info => 2
  | .debug => 3
  | .trace => 4

/-- The name of a level in front of a line. -/
def name : Level → String
  | .error => "ERROR"
  | .warn => "WARN"
  | .info => "INFO"
  | .debug => "DEBUG"
  | .trace => "TRACE"

end Level

/-- A line of the log. -/
structure Line where
  level : Level
  text : String
  deriving DecidableEq, Repr

/-- A line as it is shown. -/
def Line.shown (l : Line) : String := l.level.name ++ " " ++ Text.withhold l.text

/-- The lines shown at a least level. -/
def shown (least : Level) (lines : List Line) : List String :=
  (lines.filter fun l => l.level.rank ≤ least.rank).map Line.shown

end SparkLedger.Log

import SparkLedger.Tracker.Store

/-!
# The work of a reconcile

Questions and log lines of a reconcile, up to its first failure.
-/

namespace SparkLedger.Tracker

/-- A reconcile, or a part of one. -/
abbrev Work := ExceptT Error (Dialogue Tracking)

namespace Work

variable {α : Type}

/-- A read or write whose failure ends the reconcile; the cause says what it was for. -/
def store (cause : StoreError → Error) (d : Dialogue Tracking (Except StoreError α)) : Work α :=
  ExceptT.mk do return (← d).mapError cause

/-- Writes a log line. -/
def log (level : Log.Level) (text : String) : Work Unit := ExceptT.lift (.log level text)

/-- The value, if there is one. -/
def orFail (error : Error) : Option α → Work α
  | some a => pure a
  | none => throw error

/-- Goes on with the result of a checked computation, or breaks off. -/
def checked (x : Except Overflow α) : Work α := ExceptT.lift (.checked x)

/-- Asks for the info on an application. -/
def info (driver : Pod) (applicationId : String) (recorded : Option Ledger) :
    Work (Except Info.Error Info) :=
  ExceptT.lift (.question (I := Tracking) (.info driver applicationId recorded))

end Work

end SparkLedger.Tracker

import SparkLedger.Log
import SparkLedger.Tracker.Outcome

/-!
# Results of the control loop

Each turn of the control loop ends in a result, and each result in one line of the log.
-/

namespace SparkLedger.Tracker

/-- How messages name a pod, which may be in no namespace. -/
def describedPod (name : String) : Option String → String
  | some ns => "'" ++ name ++ "' in '" ++ ns ++ "' namespace"
  | none => "'" ++ name ++ "'"

/-- A result of the control loop. -/
inductive Result where
  | reconciled (name : String) (ns : Option String) (action : Action)
  /-- The pod was not there any more. -/
  | gone (name : String) (ns : Option String)
  | failed (name : String) (ns : Option String) (message : String)
  /-- The watch itself has failed. -/
  | watchFailed (message : String)

/-- The line of a result. -/
def Result.line : Result → Log.Line
  | .reconciled name ns action =>
    ⟨.info, "Reconciled pod " ++ describedPod name ns ++ ", next action: " ++ action.shown⟩
  | .gone name ns => ⟨.debug, "pod " ++ describedPod name ns ++ " is gone"⟩
  | .failed name ns message =>
    ⟨.warn, "Couldn't reconcile pod " ++ describedPod name ns ++ "! " ++ message⟩
  | .watchFailed message => ⟨.error, "Watcher has failed! " ++ message⟩

end SparkLedger.Tracker

import SparkLedger.Rest.Error
import SparkLedger.Tracker.Error

/-!
# Outcomes and actions

What a reconcile leaves to be done with its pod, and when the pod is looked at again. After a
failure it always is: soon if somebody else was faster, later otherwise.
-/

namespace SparkLedger.Tracker

/-- What is to be done with a pod after its reconcile. -/
inductive Outcome where
  | noRequeue
  | requeueNow
  | requeueAfter (delay : Seconds)
  deriving DecidableEq

/-- When a pod is looked at again. -/
inductive Action where
  /-- Once it changes. -/
  | awaitChange
  /-- After a delay, even if it does not change. -/
  | requeue (delay : Seconds)
  deriving DecidableEq

namespace Outcome

/-- Whether the pod is to be looked at again without a change. -/
def requestsRequeue : Outcome → Bool
  | .noRequeue => false
  | _ => true

/-- The action of an outcome. -/
def action : Outcome → Action
  | .noRequeue => .awaitChange
  | .requeueNow => .requeue ⟨0, by decide, by decide⟩
  | .requeueAfter delay => .requeue delay

end Outcome

/-- How long to wait after a conflict. -/
def conflictDelay : Seconds := ⟨1, by decide, by decide⟩

/-- How long to wait after any other failure. -/
def failureDelay : Seconds := .ten

/-- The action after a failure. -/
def Error.action (e : Error) : Action :=
  .requeue (if e.isConflict then conflictDelay else failureDelay)

/-- The action as messages show it. -/
def Action.shown : Action → String
  | .awaitChange => "Action \x7b requeue_after: None \x7d"
  | .requeue delay => "Action \x7b requeue_after: Some(" ++ Rest.shownSeconds delay ++ ") \x7d"

end SparkLedger.Tracker

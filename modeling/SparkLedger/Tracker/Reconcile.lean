import SparkLedger.Tracker.Driver
import SparkLedger.Tracker.Executor
import SparkLedger.Tracker.Finalizer

/-!
# Reconciling a pod

A reconcile brings the record of an application in line with one of its pods. It looks at the pod
as it is now, tracks it if nobody does, records it according to its role, and lets it go once it
is being deleted and nothing is left to be recorded. A pod of an application whose record is gone
goes with it.
-/

namespace SparkLedger.Tracker

open Pod (Role)

/-- A pod in a namespace as messages name it. -/
def shownPod (ns name : String) : String := "Pod '" ++ name ++ "' in '" ++ ns ++ "' namespace"

/-- Whether a pod that is being deleted goes with the record of its application. A driver does
only if the record owns it. -/
def goesWithRecord (pod : Pod) (applicationId : String) : Role → Bool
  | .driver => pod.isOwnedBy applicationId
  | .executor => true

/-- Records a pod according to its role. The answer has the pod as it is stored then. -/
def track (runningRequeue : Seconds) (pod : Pod) (applicationId : String)
    (existing : Option Application) : Role → Work (Outcome × Pod)
  | .driver => trackDriver runningRequeue pod applicationId existing
  | .executor => do
    let outcome ← trackExecutor pod applicationId existing
    return (outcome, pod)

/-- Reconciles a tracked or deleted pod. -/
def reconcileTracked (runningRequeue : Seconds) (ns name : String) (pod : Pod)
    (applicationId : String) (role : Role) : Work Outcome := do
  let application ← Work.store .store (getApplication ns applicationId)
  if application.isNone && pod.isDeleting && goesWithRecord pod applicationId role then
    Work.log .info ("'" ++ applicationId ++ "' is gone, releasing " ++ role.name ++ " pod '" ++
      name ++ "'")
    release pod
    return .noRequeue
  let (outcome, pod) ← track runningRequeue pod applicationId application role
  if pod.isDeleting && !outcome.requestsRequeue then
    release pod
    Work.log .info ("Stopped tracking " ++ role.name ++ " pod '" ++ name ++ "' of '" ++
      applicationId ++ "'")
  return outcome

/-- Reconciles a pod of an application in a role. -/
def reconcileMember (runningRequeue : Seconds) (ns name : String) (pod : Pod)
    (applicationId : String) (role : Role) : Work Outcome := do
  if !pod.isDeleting && !pod.isTracked then
    let _ ← hold pod
    Work.log .info ("Started tracking " ++ role.name ++ " pod '" ++ name ++ "' of '" ++
      applicationId ++ "'")
    return .requeueNow
  else reconcileTracked runningRequeue ns name pod applicationId role

/-- Reconciles the pod with this name. -/
def reconcile (runningRequeue : Seconds) (ns name : String) : Work Outcome := do
  match ← Work.store .store (getPod ns name) with
  | none =>
    Work.log .debug (shownPod ns name ++ " is gone, nothing to do")
    return .noRequeue
  | some pod =>
    match pod.metadata.label? Pod.applicationLabel with
    | none => return .noRequeue
    | some "" =>
      Work.log .warn (shownPod ns name ++ " has an empty application id, skipping")
      return .noRequeue
    | some applicationId =>
      match (pod.metadata.label? Pod.roleLabel).bind Role.ofName? with
      | none =>
        Work.log .warn ("Pod '" ++ name ++ "' of '" ++ applicationId ++
          "' has an unrecognized '" ++ Pod.roleLabel ++ "' label, skipping")
        return .noRequeue
      | some role => reconcileMember runningRequeue ns name pod applicationId role

/-- Reconciles the pod that an object names. -/
def reconcilePod (runningRequeue : Seconds) (pod : Pod) : Work Action := do
  let (ns, name) ← Work.orFail .missingMetadata pod.metadata.identity?
  let outcome ← reconcile runningRequeue ns name
  return outcome.action

end SparkLedger.Tracker

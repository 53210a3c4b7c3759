import SparkLedger.Tracker.Work

/-!
# The tracking finalizer

A finalizer holds a pod of an application back from deletion until its last state is recorded.
-/

namespace SparkLedger.Pod

/-- The finalizer of tracked pods. -/
def trackingFinalizer : String := "spark-tracker.dev/application-tracking"

/-- Whether the pod is tracked. -/
def isTracked (p : Pod) : Bool := (p.metadata.finalizers.getD []).contains trackingFinalizer

/-- The pod with the finalizer behind those it has. -/
def tracked (p : Pod) : Pod :=
  { p with metadata.finalizers := some (p.metadata.finalizers.getD [] ++ [trackingFinalizer]) }

/-- The pod without the finalizer; a list that becomes empty is dropped. -/
def released (p : Pod) : Pod :=
  let rest := (p.metadata.finalizers.getD []).filter (· ≠ trackingFinalizer)
  { p with metadata.finalizers := if rest.isEmpty then none else some rest }

/-- Whether a pod names the record of an application among its owners. -/
def isOwnedBy (p : Pod) (applicationId : String) : Bool :=
  (p.metadata.ownerReferences.getD []).any fun r =>
    r.kind == Application.kind && r.name == applicationId

end SparkLedger.Pod

namespace SparkLedger.Tracker

/-- Starts tracking a pod. -/
def hold (pod : Pod) : Work Pod := .store .finalizer (patchPod pod pod.tracked)

/-- Lets a pod go, if it is tracked. -/
def release (pod : Pod) : Work Unit := do
  if pod.isTracked then
    let _ ← Work.store .finalizer (patchPod pod pod.released)

end SparkLedger.Tracker

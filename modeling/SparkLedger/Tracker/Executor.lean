import SparkLedger.Tracker.Outcome
import SparkLedger.Tracker.Work

/-!
# Recording executors

An executor's reconcile puts its snapshot into the record of its application, which has to be
there: at the place where the executor is listed already, else behind the others.
-/

namespace SparkLedger

/-- Puts the snapshot of an executor with this uid into a list of executors. -/
def Application.Spec.putExecutor (uid : String) (pod : Pod) :
    List Pod.Snapshot → List Pod.Snapshot
  | [] => [.ofPod pod]
  | s :: rest =>
    if s.uid = uid then s.refreshed pod :: rest else s :: putExecutor uid pod rest

namespace Tracker

/-- Records an executor. -/
def trackExecutor (pod : Pod) (applicationId : String) (existing : Option Application) :
    Work Outcome := do
  let uid ← Work.orFail .missingMetadata pod.metadata.uid
  let stored ← Work.orFail (.applicationNotFound applicationId) existing
  let executors := Application.Spec.putExecutor uid pod stored.spec.executors
  let _ ← Work.store .store
    (patchApplication stored { stored with spec.executors := executors })
  return .noRequeue

end Tracker

end SparkLedger

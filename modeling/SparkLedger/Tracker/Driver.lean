import SparkLedger.Pod.Label
import SparkLedger.Tracker.Outcome
import SparkLedger.Tracker.Work

/-!
# Recording drivers

A driver's reconcile records its state and, if the Spark API can be asked, what the API says of
the application. It creates the record on first sight, and lets the record own the driver unless
somebody else does.
-/

namespace SparkLedger

namespace Application.Spec

/-- The snapshot of a driver after the recorded one, which counts only if it is of the same pod. -/
def driverSnapshot (s : Spec) (pod : Pod) : Pod.Snapshot :=
  .following (s.driver.filter (·.uid = pod.metadata.uid.getD "")) pod

/-- How the application was launched: as recorded, else as the driver's labels say. -/
def heritageWith? (s : Spec) (pod : Pod) : Option Heritage :=
  s.heritage <|> Pod.heritage? pod.labels

/-- Records what the API says. A name is kept if the API gives none. -/
def withInfo (s : Spec) (info : Info) : Except Overflow Spec := do
  let statistics ← info.update.apply { s.statistics with attempts := info.attempts }
  return { s with
    applicationName :=
      if info.applicationName = "" then s.applicationName else info.applicationName
    properties := info.properties
    statistics
    stageLedger := some info.update.ledger }

/-- Names a nameless application. -/
def named (s : Spec) (name : String) : Spec :=
  { s with applicationName := if s.applicationName = "" then name else s.applicationName }

end Application.Spec

namespace Tracker

/-- Whether a fetch is tried again. A driver that has ended does not begin to serve, so it is
final for it that nobody serves the API. -/
def retriesFetch (failure : Option Info.Error) (running : Bool) : Bool :=
  match failure with
  | none => false
  | some .noClient => running
  | some _ => true

/-- Records what the API says of an application, if it can be asked. -/
def recordInfo (pod : Pod) (applicationId : String) (spec : Application.Spec) :
    Work (Application.Spec × Option Info.Error) := do
  match ← Work.info pod applicationId spec.stageLedger with
  | .ok info =>
    let spec ← Work.checked (spec.withInfo info)
    return (spec, none)
  | .error error =>
    Work.log .warn ("Couldn't fetch '" ++ applicationId ++
      "' info, recording local state only! Reason: " ++ error.message)
    return (spec, some error)

/-- Writes a record: a change of the one there is, or a new one. -/
def writeApplication (existing : Option Application) (application : Application) :
    Work Application :=
  match existing with
  | some stored => .store .store (patchApplication stored application)
  | none => .store .store (createApplication application)

/-- Whether anybody owns the pod. -/
def hasOwners (pod : Pod) : Bool := !(pod.metadata.ownerReferences.getD []).isEmpty

/-- Lets the record own its driver, unless somebody does or the heritage forbids it. The answer
is the pod as it is then. -/
def ownDriver (pod : Pod) (applicationId : String) (heritage : Application.Heritage)
    (application : Application) : Work Pod := do
  if heritage.allowsOwnership && !hasOwners pod then
    match application.ownerReference? with
    | some reference =>
      let stored ← Work.store .ownerReference
        (patchPod pod { pod with metadata.ownerReferences := some [reference] })
      Work.log .info ("Driver pod of '" ++ applicationId ++
        "' is now owned by its application resource")
      return stored
    | none => return pod
  else return pod

/-- Records a driver. The answer has the pod as it is stored then. -/
def trackDriver (runningRequeue : Seconds) (pod : Pod) (applicationId : String)
    (existing : Option Application) : Work (Outcome × Pod) := do
  let (ns, name) ← Work.orFail .missingMetadata pod.metadata.identity?
  let application := existing.getD (.template ns applicationId)
  let driver := application.spec.driverSnapshot pod
  let heritage ← Work.orFail .heritage (application.spec.heritageWith? pod)
  let (spec, failure) ← recordInfo pod applicationId
    { application.spec with
      driver := some driver
      heritage := some heritage }
  let stored ← writeApplication existing { application with spec := spec.named name }
  let pod' ← ownDriver pod applicationId heritage stored
  let running := driver.isRunning
  if !pod.isDeleting && retriesFetch failure running || running then
    return (.requeueAfter runningRequeue, pod')
  else return (.noRequeue, pod')

end Tracker

end SparkLedger

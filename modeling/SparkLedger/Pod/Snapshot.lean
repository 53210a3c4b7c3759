import SparkLedger.Pod.Basic

/-!
# Snapshots of pods

What an application's record keeps of a pod. Once a snapshot says that deletion was requested,
every later one of the same pod says so too.

* `refreshed_deleted`: the mark of deletion stays.
-/

namespace SparkLedger

namespace Pod

/-- What a container does. -/
inductive Phase where
  | unknown
  | waiting
  | running
  | terminated
  deriving DecidableEq, Repr

namespace Phase

/-- The name of a phase. -/
def name : Phase → String
  | .unknown => "Unknown"
  | .waiting => "Waiting"
  | .running => "Running"
  | .terminated => "Terminated"

/-- The phase of a name. -/
def ofName? (s : String) : Option Phase :=
  if s = "Unknown" then some .unknown
  else if s = "Waiting" then some .waiting
  else if s = "Running" then some .running
  else if s = "Terminated" then some .terminated
  else none

@[simp] theorem ofName?_name (p : Phase) : ofName? p.name = some p := by cases p <;> decide

end Phase

/-- What is kept of a container. -/
@[ext]
structure ContainerSnapshot where
  name : String
  ready : Bool
  restartCount : Signed32
  state : Phase
  /-- Why the container waits or has ended. -/
  reason : Option String
  exitCode : Option Signed32
  deriving DecidableEq

/-- What is kept of a pod. -/
@[ext]
structure Snapshot where
  uid : String
  ns : String
  name : String
  phase : Option String
  containers : List ContainerSnapshot
  /-- Whether deletion was requested, now or ever. -/
  deleted : Bool
  deriving DecidableEq

namespace ContainerSnapshot

/-- What is kept of a container: a running state counts before an ended one, and that before a
waiting one. -/
def ofStatus (s : ContainerStatus) : ContainerSnapshot :=
  let (state, reason, exitCode) : Phase × Option String × Option Signed32 :=
    match s.state with
    | some ⟨some _, _, _⟩ => (.running, none, none)
    | some ⟨none, some t, _⟩ => (.terminated, t.reason, some t.exitCode)
    | some ⟨none, none, some w⟩ => (.waiting, w.reason, none)
    | _ => (.unknown, none, none)
  ⟨s.name, s.ready, s.restartCount, state, reason, exitCode⟩

/-- The record of a container. -/
def toJson (s : ContainerSnapshot) : Json :=
  .ofPresent [("exitCode", s.exitCode.map fun c => .int c.val), ("name", some (.str s.name)),
    ("ready", some (.bool s.ready)), ("reason", s.reason.map .str),
    ("restartCount", some (.int s.restartCount.val)), ("state", some (.str s.state.name))]

/-- The order in which the members of a container are shown. -/
def arrangement : Json.Arrangement :=
  .ofFields ["name", "ready", "restartCount", "state", "reason", "exitCode"]

/-- Reads a record of a container. -/
def ofJson? : Json → Option ContainerSnapshot := Json.Record.read do
  let name ← .required "name" Json.asString?
  let ready ← .required "ready" Json.asBool?
  let restartCount ← .required "restartCount" Json.asRanged?
  let state ← .required "state" (Json.asName? Phase.ofName?)
  let reason ← .optional "reason" Json.asString?
  let exitCode ← .optional "exitCode" Json.asRanged?
  return ⟨name, ready, restartCount, state, reason, exitCode⟩

end ContainerSnapshot

namespace Snapshot

/-- A snapshot of a pod as it is. -/
def ofPod (p : Pod) : Snapshot where
  uid := p.metadata.uid.getD ""
  ns := p.metadata.ns.getD ""
  name := p.metadata.name.getD ""
  phase := p.status.bind (·.phase)
  containers := ((p.status.bind (·.containers)).getD []).map ContainerSnapshot.ofStatus
  deleted := p.isDeleting

/-- The snapshot of a pod after an earlier one. -/
def refreshed (previous : Snapshot) (p : Pod) : Snapshot :=
  { ofPod p with deleted := p.isDeleting || previous.deleted }

theorem refreshed_deleted (previous : Snapshot) (p : Pod) :
    (previous.refreshed p).deleted = (p.isDeleting || previous.deleted) := rfl

/-- The snapshot of a pod after what was recorded of it, if anything was. -/
def following (previous : Option Snapshot) (p : Pod) : Snapshot :=
  match previous with
  | some s => s.refreshed p
  | none => ofPod p

/-- Whether the pod was running. -/
def isRunning (s : Snapshot) : Bool := s.phase == some "Running"

/-- The record of a snapshot. -/
def toJson (s : Snapshot) : Json :=
  .ofPresent [("containerStatuses", some (.arr (s.containers.map ContainerSnapshot.toJson))),
    ("deleted", some (.bool s.deleted)), ("name", some (.str s.name)),
    ("namespace", some (.str s.ns)), ("phase", s.phase.map .str),
    ("uid", some (.str s.uid))]

/-- The order in which the members of a snapshot are shown. -/
def arrangement : Json.Arrangement :=
  .record [("uid", .plain), ("namespace", .plain), ("name", .plain), ("phase", .plain),
    ("containerStatuses", .list ContainerSnapshot.arrangement), ("deleted", .plain)]

/-- Reads a record of a snapshot. -/
def ofJson? : Json → Option Snapshot := Json.Record.read do
  let uid ← .required "uid" Json.asString?
  let ns ← .required "namespace" Json.asString?
  let name ← .required "name" Json.asString?
  let phase ← .optional "phase" Json.asString?
  let containers ← .defaulted "containerStatuses" (Json.asList? ContainerSnapshot.ofJson?) []
  let deleted ← .defaulted "deleted" Json.asBool? false
  return ⟨uid, ns, name, phase, containers, deleted⟩

end Snapshot

end Pod

end SparkLedger

import SparkLedger.Object.Resource

/-!
# Pods

What is read of a pod and written back: its metadata and, of its status, the phase, the address,
the conditions and the containers. Objects are read leniently: null is absence, and numbers,
truth values and texts that must be there default.
-/

namespace SparkLedger

namespace Pod

/-! ## Containers -/

/-- A running container. -/
@[ext]
structure Running where
  startedAt : Option Timestamp
  deriving DecidableEq

/-- A container that waits to start. -/
@[ext]
structure Waiting where
  reason : Option String
  message : Option String
  deriving DecidableEq

/-- A container that has ended. -/
@[ext]
structure Terminated where
  exitCode : Signed32
  reason : Option String
  signal : Option Signed32
  deriving DecidableEq

/-- The state of a container, as far as it is given. -/
@[ext]
structure ContainerState where
  running : Option Running
  terminated : Option Terminated
  waiting : Option Waiting
  deriving DecidableEq

/-- The status of a container. -/
@[ext]
structure ContainerStatus where
  name : String
  ready : Bool
  restartCount : Signed32
  image : String
  imageId : String
  state : Option ContainerState
  deriving DecidableEq

/-- A condition of a pod. -/
@[ext]
structure Condition where
  type : String
  status : String
  deriving DecidableEq

/-- The status of a pod. -/
@[ext]
structure Status where
  phase : Option String
  ip : Option String
  conditions : Option (List Condition)
  containers : Option (List ContainerStatus)
  deriving DecidableEq

end Pod

/-- A pod. -/
@[ext]
structure Pod where
  metadata : Object.Metadata
  status : Option Pod.Status
  deriving DecidableEq

namespace Pod

/-! ## Writing -/

/-- The record of a running container. -/
def Running.toJson (r : Running) : Json :=
  .ofPresent [("startedAt", r.startedAt.map fun t => .str t.text)]

/-- The record of a waiting container. -/
def Waiting.toJson (w : Waiting) : Json :=
  .ofPresent [("message", w.message.map .str), ("reason", w.reason.map .str)]

/-- The record of a container that has ended. -/
def Terminated.toJson (t : Terminated) : Json :=
  .ofPresent [("exitCode", some (.int t.exitCode.val)), ("reason", t.reason.map .str),
    ("signal", t.signal.map fun s => .int s.val)]

/-- The record of a container's state. -/
def ContainerState.toJson (s : ContainerState) : Json :=
  .ofPresent [("running", s.running.map Running.toJson),
    ("terminated", s.terminated.map Terminated.toJson),
    ("waiting", s.waiting.map Waiting.toJson)]

/-- The record of a container's status. -/
def ContainerStatus.toJson (s : ContainerStatus) : Json :=
  .ofPresent [("image", some (.str s.image)), ("imageID", some (.str s.imageId)),
    ("name", some (.str s.name)), ("ready", some (.bool s.ready)),
    ("restartCount", some (.int s.restartCount.val)),
    ("state", s.state.map ContainerState.toJson)]

/-- The record of a condition. -/
def Condition.toJson (c : Condition) : Json :=
  .obj [("status", .str c.status), ("type", .str c.type)]

/-- The record of a pod's status. -/
def Status.toJson (s : Status) : Json :=
  .ofPresent [("conditions", s.conditions.map fun cs => .arr (cs.map Condition.toJson)),
    ("containerStatuses", s.containers.map fun cs => .arr (cs.map ContainerStatus.toJson)),
    ("phase", s.phase.map .str), ("podIP", s.ip.map .str)]

/-- The object of a pod. -/
def toJson (p : Pod) : Json :=
  .ofPresent [("apiVersion", some (.str "v1")), ("kind", some (.str "Pod")),
    ("metadata", some p.metadata.toJson), ("status", p.status.map Status.toJson)]

/-! ## Reading -/

open Json (lastMember? lastMemberD? asString? asBool? asRanged? asList?)

/-- Reads a running container. -/
def Running.ofJson? (j : Json) : Option Running := do
  let ms ← j.asMembers?
  return { startedAt := ← lastMember? "startedAt" Object.Metadata.timestamp? ms }

/-- Reads a waiting container. -/
def Waiting.ofJson? (j : Json) : Option Waiting := do
  let ms ← j.asMembers?
  return {
    reason := ← lastMember? "reason" asString? ms
    message := ← lastMember? "message" asString? ms }

/-- Reads a container that has ended. -/
def Terminated.ofJson? (j : Json) : Option Terminated := do
  let ms ← j.asMembers?
  return {
    exitCode := ← lastMemberD? "exitCode" asRanged? 0 ms
    reason := ← lastMember? "reason" asString? ms
    signal := ← lastMember? "signal" asRanged? ms }

/-- Reads a container's state. -/
def ContainerState.ofJson? (j : Json) : Option ContainerState := do
  let ms ← j.asMembers?
  return {
    running := ← lastMember? "running" Running.ofJson? ms
    terminated := ← lastMember? "terminated" Terminated.ofJson? ms
    waiting := ← lastMember? "waiting" Waiting.ofJson? ms }

/-- Reads a container's status. -/
def ContainerStatus.ofJson? (j : Json) : Option ContainerStatus := do
  let ms ← j.asMembers?
  return {
    name := ← lastMemberD? "name" asString? "" ms
    ready := ← lastMemberD? "ready" asBool? false ms
    restartCount := ← lastMemberD? "restartCount" asRanged? 0 ms
    image := ← lastMemberD? "image" asString? "" ms
    imageId := ← lastMemberD? "imageID" asString? "" ms
    state := ← lastMember? "state" ContainerState.ofJson? ms }

/-- Reads a condition. -/
def Condition.ofJson? (j : Json) : Option Condition := do
  let ms ← j.asMembers?
  return {
    type := ← lastMemberD? "type" asString? "" ms
    status := ← lastMemberD? "status" asString? "" ms }

/-- Reads a pod's status. -/
def Status.ofJson? (j : Json) : Option Status := do
  let ms ← j.asMembers?
  return {
    phase := ← lastMember? "phase" asString? ms
    ip := ← lastMember? "podIP" asString? ms
    conditions := ← lastMember? "conditions" (asList? Condition.ofJson?) ms
    containers := ← lastMember? "containerStatuses" (asList? ContainerStatus.ofJson?) ms }

/-- Whether every member with this name has this value. -/
def agrees (name value : String) (ms : List (String × Json)) : Bool :=
  ms.all fun m => m.1 ≠ name || m.2.asString? == some value

/-- Reads a pod; an object of another kind is none. -/
def ofJson? (j : Json) : Option Pod := do
  let ms ← j.asMembers?
  if agrees "apiVersion" "v1" ms && agrees "kind" "Pod" ms then
    return {
      metadata := ← lastMemberD? "metadata" Object.Metadata.ofJson? .empty ms
      status := ← lastMember? "status" Status.ofJson? ms }
  else none

instance : Object.Resource Pod where
  kind := "Pod"
  collection ns := "/api/v1/namespaces/" ++ ns ++ "/pods"
  metadata := Pod.metadata
  toJson := Pod.toJson
  arrangement := .plain
  ofJson? := Pod.ofJson?

/-! ## Questions about a pod -/

/-- Whether deletion of the pod was requested. -/
def isDeleting (p : Pod) : Bool := p.metadata.isDeleting

/-- The labels of the pod. -/
def labels (p : Pod) : Object.Labels := p.metadata.labels.getD .empty

/-- Whether the first container runs. -/
def isPrimaryRunning (s : Status) : Bool :=
  ((s.containers.bind List.head?).bind (·.state)).any (·.running.isSome)

/-- Whether the pod is ready. -/
def isReady (s : Status) : Bool :=
  (s.conditions.getD []).any fun c => c.type == "Ready" && c.status == "True"

/-- Whether the pod serves requests: its first container runs and it is ready. -/
def isServing (p : Pod) : Bool := p.status.any fun s => isPrimaryRunning s && isReady s

end Pod

end SparkLedger

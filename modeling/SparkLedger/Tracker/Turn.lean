import SparkLedger.Tracker.Agent
import SparkLedger.Tracker.Result

/-!
# Turns of the control loop

The control loop lists the pods that have an application label at all, and then takes turns at
them. A turn reconciles a pod and says when the next one is due.
-/

namespace SparkLedger.Tracker

/-- The line in front of the control loop. -/
def watchLine (settings : Settings) : Log.Line :=
  let place :=
    match settings.ns with
    | some ns => "'" ++ ns ++ "' namespace"
    | none => "all namespaces"
  ⟨.info, "Watching spark pods in " ++ place ++ "..."⟩

/-- The line behind the control loop. -/
def stoppedLine : Log.Line := ⟨.info, "Pod controller stopped"⟩

/-- Where the pods of a namespace are listed, or those of all namespaces. -/
def podCollection : Option String → String
  | some ns => Object.Resource.collection Pod ns
  | none => "/api/v1/pods"

/-- Lists the pods to take turns at. -/
def listPods (settings : Settings) : Dialogue Wire (Except Kube.Error (List Pod)) :=
  Kube.request .get (podCollection settings.ns ++ Kube.selection Pod.applicationLabel) none
    (Kube.Listed.watchable? Pod.ofJson?)

/-- What is said of a listed pod without a name: there is nothing to keep it under. -/
def namelessMessage : String := ".metadata.name missing"

/-- What a turn comes to: its result, and when the pod is looked at again. -/
structure Turn where
  result : Result
  action : Action

/-- Takes a turn at a pod. -/
def turn (settings : Settings) (pod : Pod) : Dialogue Wire Turn := do
  let name := pod.metadata.name.getD ""
  let ns := pod.metadata.ns
  match ← onWire settings (reconcilePod settings.runningRequeue pod).run with
  | .ok action => return ⟨.reconciled name ns action, action⟩
  | .error error => return ⟨.failed name ns error.message, error.action⟩

end SparkLedger.Tracker

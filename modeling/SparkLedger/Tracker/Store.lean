import SparkLedger.Tracker.Error
import SparkLedger.Tracker.Interface

/-!
# Reading and writing objects

Every write is conditional on the version of the object it was made from, and nothing is written
where nothing changed.
-/

namespace SparkLedger.Tracker

open Object (Resource)

/-- Who writes, as the server notes it. -/
def fieldManager : String := "spark-tracker-controller"

/-- The pod with this name, unless it is absent. -/
def getPod (ns name : String) : Dialogue Tracking (Except StoreError (Option Pod)) := do
  let pod : Except Kube.Error (Option Pod) ← .question (I := Tracking) (.getPod ns name)
  return pod.mapError .ofKube

/-- The record with this name, unless it is absent. -/
def getApplication (ns name : String) :
    Dialogue Tracking (Except StoreError (Option Application)) := do
  let application : Except Kube.Error (Option Application) ←
    .question (I := Tracking) (.getApplication ns name)
  return application.mapError .ofKube

/-- Creates a record. -/
def createApplication (application : Application) :
    Dialogue Tracking (Except StoreError Application) := do
  match application.metadata.identity? with
  | none => return .error .missingMetadata
  | some (ns, name) =>
    .log .info ("Creating '" ++ name ++ "' " ++ Application.kind ++ " resource in '" ++ ns ++
      "' namespace...")
    let stored : Except Kube.Error Application ←
      .question (I := Tracking) (.createApplication ns application)
    return stored.mapError .ofKube

/-- Changes one object into another by a conditional merge patch, if there is a difference. The
answer is the stored object. -/
def patchWith {α : Type} [Resource α]
    (send : String → String → Json → Dialogue Tracking (Except Kube.Error α))
    (old new : α) : Dialogue Tracking (Except StoreError α) := do
  match (Resource.metadata old).identity? with
  | none => return .error .missingMetadata
  | some (ns, name) =>
    match Object.conditionalPatch? old new with
    | none =>
      .log .debug ("'" ++ name ++ "' " ++ Resource.kind α ++ " is up to date, skipping the patch")
      return .ok old
    | some patch =>
      .log .debug ("Patching '" ++ name ++ "' " ++ Resource.kind α ++ ": " ++
        Object.shownPatch old new)
      let stored ← send ns name patch
      return stored.mapError .ofKube

/-- Changes a pod. -/
def patchPod (old new : Pod) : Dialogue Tracking (Except StoreError Pod) :=
  patchWith (fun ns name patch => .question (I := Tracking) (.patchPod ns name patch)) old new

/-- Changes a record. -/
def patchApplication (old new : Application) :
    Dialogue Tracking (Except StoreError Application) :=
  patchWith (fun ns name patch => .question (I := Tracking) (.patchApplication ns name patch))
    old new

end SparkLedger.Tracker

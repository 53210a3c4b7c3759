import SparkLedger.Kube.Error

/-!
# Failures of a reconcile
-/

namespace SparkLedger.Tracker

/-- Why an object could not be read or written. -/
inductive StoreError where
  /-- The object has no name or no namespace. -/
  | missingMetadata
  /-- Somebody else has changed the object. -/
  | conflict (message : String)
  | api (error : Kube.Error)
  deriving DecidableEq

namespace StoreError

/-- A failure of the API server; the code 409 is a conflict. -/
def ofKube : Kube.Error → StoreError
  | .api code reason message =>
    if code = 409 then .conflict message else .api (.api code reason message)
  | error => .api error

/-- Whether somebody else has changed the object. -/
def isConflict : StoreError → Bool
  | .conflict _ => true
  | _ => false

/-- What an error says. -/
def message : StoreError → String
  | .missingMetadata => "Object is missing metadata!"
  | .conflict message => "The object was modified concurrently! Reason: " ++ message
  | .api error => "Kubernetes API request failed! Reason: " ++ error.message

end StoreError

/-- Why a reconcile failed. -/
inductive Error where
  | missingMetadata
  | store (error : StoreError)
  | finalizer (error : StoreError)
  | ownerReference (error : StoreError)
  | applicationNotFound (applicationId : String)
  | heritage
  deriving DecidableEq

namespace Error

/-- Whether somebody else has changed an object meanwhile. -/
def isConflict : Error → Bool
  | .store error => error.isConflict
  | .finalizer error => error.isConflict
  | .ownerReference error => error.isConflict
  | _ => false

/-- What an error says. -/
def message : Error → String
  | .missingMetadata => "Object is missing metadata!"
  | .store error => "Couldn't write the spark application resource! Reason: " ++ error.message
  | .finalizer error => "Couldn't update the tracking finalizer! Reason: " ++ error.message
  | .ownerReference error =>
    "Couldn't set the driver pod owner reference! Reason: " ++ error.message
  | .applicationNotFound applicationId =>
    "Spark application cr not found: '" ++ applicationId ++ "'!"
  | .heritage => "Driver pod heritage is unknown! Reason: Could not determine heritage!"

end Error

end SparkLedger.Tracker

import SparkLedger.Application.Heritage
import SparkLedger.Application.Statistics
import SparkLedger.Pod.Snapshot
import SparkLedger.Stage.Ledger

/-!
# Records of applications

One resource per run of a Spark application, named after the application's id: what is known of
its pods, its properties and its totals.
-/

namespace SparkLedger

namespace Application

/-- The group of the resource. -/
def group : String := "spark-tracker.dev"

/-- The version of the resource within its group. -/
def version : String := "v1alpha1"

/-- Group and version as objects carry them. -/
def apiVersion : String := group ++ "/" ++ version

/-- The name of the kind. -/
def kind : String := "SparkApplication"

/-- The name of the kind's collection. -/
def plural : String := "sparkapplications"

/-- The definition of the kind as the cluster lists it. -/
structure Definition where
  name : String
  group : String
  scope : String
  kind : String
  plural : String
  singular : String
  shortNames : List String
  /-- Name, whether it is served, whether it is stored. -/
  versions : List (String × Bool × Bool)

/-- The definition of the kind. -/
def definition : Definition where
  name := plural ++ "." ++ group
  group := group
  scope := "Namespaced"
  kind := kind
  plural := plural
  singular := "sparkapplication"
  shortNames := ["sparkapp"]
  versions := [(version, true, true)]

/-- What the record of an application says. -/
@[ext]
structure Spec where
  applicationId : String
  /-- The name the application reports, the driver's name until then. -/
  applicationName : String
  heritage : Option Heritage
  /-- The latest snapshot of the driver. -/
  driver : Option Pod.Snapshot
  /-- The executors in the order of their first appearance. -/
  executors : List Pod.Snapshot
  properties : SortedMap String String
  statistics : Statistics
  /-- The ledger behind the totals. -/
  stageLedger : Option Ledger
  deriving DecidableEq

namespace Spec

/-- The record of a specification. -/
def toJson (s : Spec) : Json :=
  .ofPresent [("applicationId", some (.str s.applicationId)),
    ("applicationName", some (.str s.applicationName)),
    ("driver", s.driver.map Pod.Snapshot.toJson),
    ("executors", some (.arr (s.executors.map Pod.Snapshot.toJson))),
    ("heritage", s.heritage.map fun h => .str h.name),
    ("runStatistics", some s.statistics.toJson),
    ("sparkProperties", some (.ofMap .str s.properties)),
    ("stageMetrics", s.stageLedger.map Ledger.toJson)]

/-- The order in which the members of a specification are shown. -/
def arrangement : Json.Arrangement :=
  .record [("applicationId", .plain), ("applicationName", .plain), ("heritage", .plain),
    ("driver", Pod.Snapshot.arrangement), ("executors", .list Pod.Snapshot.arrangement),
    ("sparkProperties", .plain), ("runStatistics", Statistics.arrangement),
    ("stageMetrics", Ledger.arrangement)]

/-- Reads a record of a specification. -/
def ofJson? : Json → Option Spec := Json.Record.read do
  let applicationId ← .required "applicationId" Json.asString?
  let applicationName ← .defaulted "applicationName" Json.asString? ""
  let heritage ← .optional "heritage" Heritage.ofJson?
  let driver ← .optional "driver" Pod.Snapshot.ofJson?
  let executors ← .defaulted "executors" (Json.asList? Pod.Snapshot.ofJson?) []
  let properties ← .defaulted "sparkProperties" (Json.asTextMap? Json.asString?) .empty
  let statistics ← .defaulted "runStatistics" Statistics.ofJson? .zero
  let stageLedger ← .optional "stageMetrics" Ledger.ofJson?
  return ⟨applicationId, applicationName, heritage, driver, executors, properties, statistics,
    stageLedger⟩

end Spec

end Application

/-- The record of an application, as an object of the cluster. -/
@[ext]
structure Application where
  metadata : Object.Metadata
  spec : Application.Spec
  deriving DecidableEq

namespace Application

/-- The object of an application. -/
def toJson (a : Application) : Json :=
  .obj [("apiVersion", .str apiVersion), ("kind", .str kind), ("metadata", a.metadata.toJson),
    ("spec", a.spec.toJson)]

/-- Reads the object of an application; its kind and version are not looked at. -/
def ofJson? : Json → Option Application := Json.Record.read do
  let metadata ← .required "metadata" Object.Metadata.ofJson?
  let spec ← .required "spec" Spec.ofJson?
  return ⟨metadata, spec⟩

/-- The order in which the members of an application's object are shown. -/
def arrangement : Json.Arrangement :=
  .record [("apiVersion", .plain), ("kind", .plain), ("metadata", .plain),
    ("spec", Spec.arrangement)]

instance : Object.Resource Application where
  kind := kind
  collection ns := "/apis/" ++ apiVersion ++ "/namespaces/" ++ ns ++ "/" ++ plural
  metadata := Application.metadata
  toJson := Application.toJson
  arrangement := arrangement
  ofJson? := Application.ofJson?

/-- An empty record for an application. -/
def template (ns applicationId : String) : Application where
  metadata := { Object.Metadata.empty with
    name := some applicationId
    ns := some ns }
  spec := ⟨applicationId, "", none, none, [], .empty, .zero, none⟩

/-- The reference by which a dependent names this application as its owner. The owner does not
control it, and cannot go before it. An application without name or uid cannot be referred to. -/
def ownerReference? (a : Application) : Option Object.OwnerReference := do
  let name ← a.metadata.name
  let uid ← a.metadata.uid
  return ⟨apiVersion, kind, name, uid, some false, some true⟩

end Application

end SparkLedger

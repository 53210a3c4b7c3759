import SparkLedger.Info.Basic
import SparkLedger.Pod.Basic
import SparkLedger.Settings

/-!
# Where an application's info comes from

The history server is the first named service that the selector finds in the driver's namespace.
The driver itself serves the API while its first container runs and it is ready. With direct
addressing a service has its name in the cluster and a pod its address, once it has one.
-/

namespace SparkLedger.Info

open Rest (Client Endpoint)

/-- A service of the cluster, by its metadata. -/
structure Service where
  metadata : Object.Metadata

/-- Reads a service. -/
def Service.ofJson? (j : Json) : Option Service := do
  let ms ← j.asMembers?
  if Pod.agrees "apiVersion" "v1" ms && Pod.agrees "kind" "Service" ms then
    return ⟨← Json.lastMemberD? "metadata" Object.Metadata.ofJson? .empty ms⟩
  else none

/-- Asks for the services of a namespace that a selector finds. -/
def Listing : Interface where
  Question := String × String
  Answer _ := Except Kube.Error (List Service)

/-- The endpoint of a pod or a service, if it can be addressed. -/
def endpoint? (settings : Settings) (target : Rest.Target) (ns name : String)
    (directHost : Option String) (port : Port) : Option Endpoint :=
  if settings.directHttp then directHost.map fun host => .direct host port
  else some (.proxied target ns name port)

/-- Writes that something has no address. -/
def sayUnaddressed (ns name : String) : Dialogue Listing Unit :=
  .log .debug ("'" ++ name ++ "' in '" ++ ns ++ "' has no address yet")

/-- The history server of a namespace. -/
def historyClient? (settings : Settings) (ns : String) : Dialogue Listing (Option Client) := do
  let services : Except Kube.Error (List Service) ←
    .question (I := Listing) (ns, settings.historySelector)
  match services with
  | .error error =>
    .log .warn ("Couldn't look up the history server in '" ++ ns ++ "' namespace! Reason: " ++
      error.message)
    return none
  | .ok services =>
    match services.findSome? (·.metadata.name) with
    | none => return none
    | some name =>
      return (endpoint? settings .service ns name (some (name ++ "." ++ ns ++ ".svc"))
        settings.historyPort).map fun e => ⟨.history, e⟩

/-- The driver as a server of the API. -/
def driverClient? (settings : Settings) (driver : Pod) : Dialogue Listing (Option Client) := do
  if !driver.isServing then return none
  match driver.metadata.identity? with
  | none => return none
  | some (ns, name) =>
    match endpoint? settings .pod ns name (driver.status.bind (·.ip)) settings.driverPort with
    | some e => return some ⟨.driver, e⟩
    | none =>
      sayUnaddressed ns name
      return none

/-- Finds who can describe the application of a driver. -/
def locate (settings : Settings) (driver : Pod) : Dialogue Listing (Except Error Source) := do
  match driver.metadata.ns with
  | none => return .error .noClient
  | some ns =>
    let history ← historyClient? settings ns
    let driver ← driverClient? settings driver
    match Source.ofClients? history driver with
    | some source => return .ok source
    | none => return .error .noClient

end SparkLedger.Info

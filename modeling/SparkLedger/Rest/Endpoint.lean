import SparkLedger.Ranged

/-!
# Endpoints of the Spark API

Where a Spark API is reached: through the API server's proxy to a pod or a service, or directly
by host and port. Leading slashes of a path do not count.
-/

namespace SparkLedger.Rest

/-- What the API server's proxy leads to. -/
inductive Target where
  | pod
  | service
  deriving DecidableEq, Repr

/-- The collection of a target in URLs. -/
def Target.collection : Target → String
  | .pod => "pods"
  | .service => "services"

/-- A path without its leading slashes. -/
def relative (path : String) : String := String.ofList (path.toList.dropWhile (· == '/'))

/-- A port in decimal digits. -/
def portText (port : Port) : String := toString port.val

/-- The URL, on the API server, of a path behind a pod or a service. -/
def proxyUrl (target : Target) (ns name : String) (port : Port) (path : String) : String :=
  "/api/v1/namespaces/" ++ ns ++ "/" ++ target.collection ++ "/" ++ name ++ ":" ++
    portText port ++ "/proxy/" ++ relative path

/-- A host as URLs have it: an address with colons stands in brackets. -/
def bracketed (host : String) : String :=
  if host.toList.contains ':' && host.toList.head? != some '[' then "[" ++ host ++ "]" else host

/-- The URL of a host and port. -/
def baseUrl (host : String) (port : Port) : String :=
  "http://" ++ bracketed host ++ ":" ++ portText port

/-- The URL of a path on a host. -/
def directUrl (host : String) (port : Port) (path : String) : String :=
  baseUrl host port ++ "/" ++ relative path

/-- Where an API is reached. -/
inductive Endpoint where
  | proxied (target : Target) (ns name : String) (port : Port)
  | direct (host : String) (port : Port)
  /-- Recorded answers under a name. -/
  | recorded (name : String)
  deriving DecidableEq

namespace Endpoint

/-- The endpoint as messages name it. -/
def shown : Endpoint → String
  | .proxied target ns name port =>
    target.collection ++ "/" ++ ns ++ "/" ++ name ++ ":" ++ portText port
  | .direct host port => baseUrl host port
  | .recorded name => name

/-- The URL of a path at the endpoint. -/
def url (path : String) : Endpoint → String
  | .proxied target ns name port => proxyUrl target ns name port path
  | .direct host port => directUrl host port path
  | .recorded _ => path

end Endpoint

end SparkLedger.Rest

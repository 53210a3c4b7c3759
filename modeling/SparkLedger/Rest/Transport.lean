import SparkLedger.Rest.Client
import SparkLedger.Wire

/-!
# Fetching bodies over the wire

How an endpoint is asked for the body of a path. The API server's proxy has a time limit; a
direct host keeps its own.
-/

namespace SparkLedger.Rest

/-- Asks the API server's proxy. -/
def fetchProxied (limit : Seconds) (url : String) :
    Dialogue Wire (Except TransportError ByteArray) := do
  match Kube.Url.ofText? url with
  | none => return .error (.invalidRequest url)
  | some sent =>
    .log .trace ("GET " ++ url)
    let reply : Option Kube.Reply ← .question (I := Wire) (.sendWithin ⟨.get, sent, none⟩ limit)
    match reply with
    | none => return .error (.timeout url limit)
    | some reply => return (reply.text.map String.toUTF8).mapError .kube

/-- Asks a host. -/
def fetchDirect (url : String) : Dialogue Wire (Except TransportError ByteArray) := do
  .log .trace ("GET " ++ url)
  let body : Except (Option Nat) ByteArray ← .question (I := Wire) (.fetch url)
  return body.mapError .http

/-- Asks an endpoint for the body of a path. Nothing is recorded on the wire. -/
def fetch (limit : Seconds) : Endpoint × String → Dialogue Wire (Except TransportError ByteArray)
  | (.proxied target ns name port, path) => fetchProxied limit (proxyUrl target ns name port path)
  | (.direct host port, path) => fetchDirect (directUrl host port path)
  | (.recorded _, path) => return .error (.invalidRequest path)

end SparkLedger.Rest

import SparkLedger.Kube.Error
import SparkLedger.Ranged

/-!
# Failures of calls to the Spark API
-/

namespace SparkLedger.Rest

/-- Why an endpoint gave no body. -/
inductive TransportError where
  /-- The API server did not pass the request on. -/
  | kube (error : Kube.Error)
  /-- The direct request failed; the status, if the host answered at all. -/
  | http (status : Option Nat)
  /-- The URL is not valid. -/
  | invalidRequest (url : String)
  /-- No answer came in time. -/
  | timeout (url : String) (limit : Seconds)
  deriving DecidableEq

/-- A number of seconds as messages show it. -/
def shownSeconds (s : Seconds) : String := if s.val = 0 then "0ns" else toString s.val ++ "s"

namespace TransportError

/-- What an error says. -/
def message : TransportError → String
  | .kube error => "API server proxy request failed! Reason: " ++ error.message
  | .http (some status) => "HTTP request failed! Reason: status " ++ toString status
  | .http none => "HTTP request failed! Reason: the host could not be reached"
  | .invalidRequest url => "Couldn't build a request for '" ++ url ++ "'!"
  | .timeout url limit =>
    "Request to '" ++ url ++ "' didn't complete within " ++ shownSeconds limit ++ "!"

end TransportError

/-- Why a call gave no report. -/
inductive Error where
  | transport (error : TransportError)
  /-- The body of a path was not what the path should give. -/
  | undecodable (path : String)
  deriving DecidableEq

/-- What an error says. -/
def Error.message : Error → String
  | .transport error => "Couldn't reach the spark API! Reason: " ++ error.message
  | .undecodable path =>
    "Couldn't decode '" ++ path ++ "' response! Reason: the body could not be decoded"

end SparkLedger.Rest

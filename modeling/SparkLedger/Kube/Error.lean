/-!
# Failures of the API server

Why a request to the API server gave no result.
-/

namespace SparkLedger.Kube

/-- Why a request gave no result. -/
inductive Error where
  /-- The server refused it, with its own code, reason and message. -/
  | api (code : Nat) (reason message : String)
  /-- The answer was not what was asked for. -/
  | undecodable
  /-- The answer was no text. -/
  | notText
  /-- The request has no valid URL. -/
  | invalidRequest
  deriving DecidableEq, Repr

/-- What an error says. -/
def Error.message : Error → String
  | .api _ reason message => message ++ ": " ++ reason
  | .undecodable => "the answer could not be decoded"
  | .notText => "the answer is not UTF-8"
  | .invalidRequest => "the request could not be built"

end SparkLedger.Kube

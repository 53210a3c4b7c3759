import SparkLedger.Json.Basic
import SparkLedger.Kube.Url

/-!
# Requests to the API server
-/

namespace SparkLedger.Kube

/-- What a request does. -/
inductive Method where
  | get
  | post
  | patch
  deriving DecidableEq, Repr

namespace Method

/-- The name of a method. -/
def name : Method → String
  | .get => "GET"
  | .post => "POST"
  | .patch => "PATCH"

/-- The type of the content that a request of this method sends. -/
def contentType : Method → String
  | .patch => "application/merge-patch+json"
  | _ => "application/json"

end Method

/-- A request. -/
structure Request where
  method : Method
  url : Url
  /-- What is sent, if anything is. -/
  body : Option Json

/-- Method and URL of a request. -/
def Request.line (r : Request) : String := r.method.name ++ " " ++ r.url.text

end SparkLedger.Kube

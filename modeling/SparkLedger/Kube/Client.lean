import SparkLedger.Info.Locate
import SparkLedger.Text.FormEncoding
import SparkLedger.Wire

/-!
# Requests for objects

Reading, creating and patching objects of the cluster over the wire. A request whose URL is not
valid is not sent.
-/

namespace SparkLedger.Kube

open Object (Resource)

variable {α : Type}

/-- Sends a request and reads the result in its reply. -/
def request (method : Method) (url : String) (body : Option Json) (decode : Json → Option α) :
    Dialogue Wire (Except Error α) := do
  match Url.ofText? url with
  | none => return .error .invalidRequest
  | some url =>
    let reply : Reply ← .question (I := Wire) (.send ⟨method, url, body⟩)
    return reply.read decode

/-- A result that may be absent. -/
def presence : Except Error α → Except Error (Option α)
  | .ok a => .ok (some a)
  | .error (.api code reason message) =>
    if reason = "NotFound" then .ok none else .error (.api code reason message)
  | .error error => .error error

/-- The object with this name, unless it is absent. -/
def get? (α : Type) [Resource α] (ns name : String) :
    Dialogue Wire (Except Error (Option α)) := do
  let object : Except Error α ←
    request .get (Resource.collection α ns ++ "/" ++ name) none Resource.ofJson?
  return presence object

/-- Creates an object. -/
def create [Resource α] (ns : String) (object : α) : Dialogue Wire (Except Error α) :=
  request .post (Resource.collection α ns ++ "?") (some (Resource.toJson object)) Resource.ofJson?

/-- Changes an object by a merge patch in the name of a manager of its fields. -/
def patch (α : Type) [Resource α] (manager ns name : String) (patch : Json) :
    Dialogue Wire (Except Error α) :=
  request .patch (Resource.collection α ns ++ "/" ++ name ++ "?&fieldManager=" ++
    Text.formEncoded manager) (some patch) Resource.ofJson?

/-- The query for a selection of labels. -/
def selection (selector : String) : String := "?&labelSelector=" ++ Text.formEncoded selector

/-- A list of objects. -/
structure Listed (α : Type) where
  /-- The version of the cluster that the list shows, if it is told. -/
  version : Option String
  items : List α

namespace Listed

/-- Reads the version in what a list says of itself. -/
def version? (j : Json) : Option (Option String) := do
  let ms ← j.asMembers?
  let _ ← Json.lastMember? "continue" Json.asString? ms
  let _ : Option Signed64 ← Json.lastMember? "remainingItemCount" Json.asRanged? ms
  let _ ← Json.lastMember? "selfLink" Json.asString? ms
  Json.lastMember? "resourceVersion" Json.asString? ms

/-- Reads a list, whose items may be null for none. -/
def ofJson? (read : Json → Option α) : Json → Option (Listed α) := Json.Record.read do
  let version ← .required "metadata" version?
  let items ← .required "items" (Json.asNullable? (Json.asList? read))
  return ⟨version, items.getD []⟩

/-- Reads the items of a list that tells its version, so that changes after it can be watched. -/
def watchable? (read : Json → Option α) (j : Json) : Option (List α) := do
  let list ← ofJson? read j
  if list.version.isSome then some list.items else none

end Listed

/-- The services of a namespace that a selector finds. -/
def services (ns selector : String) : Dialogue Wire (Except Error (List Info.Service)) :=
  request .get ("/api/v1/namespaces/" ++ ns ++ "/services" ++ selection selector) none
    fun j => (Listed.ofJson? Info.Service.ofJson? j).map (·.items)

end SparkLedger.Kube

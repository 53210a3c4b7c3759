import SparkLedger.Json.Record
import SparkLedger.Kube.Error
import SparkLedger.Text.Quoted

/-!
# Replies of the API server

How the result of a request is read from its reply. A reply has to be text. Under the status of
a failure the text says what went wrong, with a code of its own; a text that says nothing of the
kind is itself the message.
-/

namespace SparkLedger.Kube

/-- A reply. -/
structure Reply where
  status : Nat
  body : ByteArray

/-- What a server says of a failure. -/
structure Failure where
  status : String
  message : String
  reason : String
  code : Ranged 0 65535

/-- Reads a failure. -/
def Failure.ofJson? : Json → Option Failure := Json.Record.read do
  let status ← .required "status" Json.asString?
  let message ← .defaulted "message" Json.asString? ""
  let reason ← .defaulted "reason" Json.asString? ""
  let code ← .required "code" Json.asRanged?
  return ⟨status, message, reason, code⟩

namespace Reply

/-- The error that a text stands for under a status. -/
def failure (status : Nat) (text : String) : Error :=
  match Json.ofBytes? text.toUTF8 >>= Failure.ofJson? with
  | some f => .api f.code.val.toNat f.reason f.message
  | none => .api status "Failed to parse error data" (Text.quoted text)

/-- Whether a reply has the status of a failure, by fault of the client or of the server. Above
those statuses there are others, which no standard gives a meaning. -/
def isFailure (r : Reply) : Bool := 400 ≤ r.status && r.status < 600

/-- The text of a reply that is no failure. -/
def text (r : Reply) : Except Error String :=
  match String.fromUTF8? r.body with
  | none => .error .notText
  | some text => if r.isFailure then .error (failure r.status text) else .ok text

/-- Reads the result in a reply. -/
def read {α : Type} (decode : Json → Option α) (r : Reply) : Except Error α := do
  let text ← r.text
  match Json.ofBytes? text.toUTF8 >>= decode with
  | some a => return a
  | none => throw .undecodable

end Reply

end SparkLedger.Kube

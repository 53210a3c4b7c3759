import SparkLedger.Dialogue
import SparkLedger.Kube.Reply
import SparkLedger.Kube.Request

/-!
# The wire

What leaves the program: requests to the API server, which may wait for good or for a limited
time, and direct requests to a host.
-/

namespace SparkLedger

/-- A question to the outside. -/
inductive Wire.Question where
  | send (request : Kube.Request)
  | sendWithin (request : Kube.Request) (limit : Seconds)
  | fetch (url : String)

/-- The answer to a question. A request with a limit may get no reply in time, and a direct
request fails with the status of the host, if it has answered at all. -/
def Wire.Question.Answer : Wire.Question → Type
  | .send _ => Kube.Reply
  | .sendWithin .. => Option Kube.Reply
  | .fetch _ => Except (Option Nat) ByteArray

/-- Requests to the outside. -/
def Wire : Interface where
  Question := Wire.Question
  Answer := Wire.Question.Answer

end SparkLedger

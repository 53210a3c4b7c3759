import SparkLedger.Cluster.Serve
import SparkLedger.Wire

/-!
# Sessions with a cluster

A session serves the questions of the wire from a cluster, and keeps what was sent and logged.
Its clock passes over time in which nothing can happen: it moves only while a limited request
waits for an answer that does not come. A request that may take no time at all is too late before
it is sent, and one that asks to watch waits for a change that never comes: neither is among what
was sent. No host can be reached directly.
-/

namespace SparkLedger.Cluster

/-- A session. -/
structure Session where
  cluster : Cluster
  /-- The time in seconds. -/
  clock : Nat
  /-- When the session ends, if it does; nothing happens then any more. -/
  stop : Option Nat
  /-- The requests sent so far and when. -/
  sent : List (Nat × Kube.Request)
  /-- The lines logged so far. -/
  log : List Log.Line

namespace Session

/-- A session that begins now. -/
def start (c : Cluster) (stop : Option Nat) : Session := ⟨c, 0, stop, [], []⟩

/-- Logs a line. -/
def note (line : Log.Line) (s : Session) : Session := { s with log := s.log ++ [line] }

/-- Sends a request. -/
def send (q : Kube.Request) (s : Session) : Response × Session :=
  if asksToWatch q then (.silence, s)
  else
    let (response, cluster) := s.cluster.serve q
    (response, { s with
      cluster
      sent := s.sent ++ [(s.clock, q)] })

/-- Lets time pass, unless the session ends before. -/
def wait (limit : Seconds) (s : Session) : Option Session :=
  let clock := s.clock + limit.toNat
  if s.stop.all (clock < ·) then some { s with clock } else none

/-- Answers a question of the wire, or never does. -/
def answer : (q : Wire.Question) → Session → Option q.Answer × Session
  | .send q, s =>
    match s.send q with
    | (.reply r, s) => (some r, s)
    | (.silence, s) => (none, s)
  | .sendWithin q limit, s =>
    if limit.val = 0 then (some none, s)
    else
      match s.send q with
      | (.reply r, s) => (some (some r), s)
      | (.silence, s) =>
        match s.wait limit with
        | some s => (some none, s)
        | none => (none, s)
  | .fetch _, s => (some (.error none), s)

/-- The session as an environment. -/
def environment : Dialogue.Environment Wire Session := ⟨answer, note⟩

/-- Holds a dialogue. -/
def hold {α : Type} (d : Dialogue Wire α) (s : Session) : Dialogue.Ending α × Session :=
  Dialogue.hold environment d s

end Session

end SparkLedger.Cluster

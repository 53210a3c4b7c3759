import SparkLedger.Cluster.Session
import SparkLedger.Tracker.Schedule
import SparkLedger.Tracker.Turn

/-!
# Watching a cluster

The control loop at a cluster that does not change by itself. Pods are listed until a list comes,
each is due at once, and again as its turns demand, until the loop is left. The result of a turn
is logged once the next turn has a time, and before the timer takes that time. A loop that is told
to stop before it is left takes no more turns, but may finish one.
-/

namespace SparkLedger.Cluster

open Tracker

/-- How long a loop goes on. -/
structure Span where
  seconds : Nat
  /-- Whether the loop is told to stop then. If not, it is left. -/
  terminate : Bool

namespace Span

/-- Whether nothing is begun any more after so many milliseconds. A loop that is told to stop
hears of it only after what is due at the same time. -/
def isOver (span : Span) (time : Nat) : Bool :=
  if span.terminate then span.seconds * 1000 < time else span.seconds * 1000 ≤ time

/-- When the loop is left. Told to stop, it has as long again to finish what is on its way. -/
def left (span : Span) : Nat := if span.terminate then 2 * span.seconds else span.seconds

end Span

/-- A pod and when it is due. -/
structure Due where
  time : Nat
  pod : Pod

/-- Puts a pod behind those that are due no later. -/
def enqueue (d : Due) : List Due → List Due
  | [] => [d]
  | e :: rest => if d.time < e.time then d :: e :: rest else e :: enqueue d rest

/-- How a watch ends. -/
inductive WatchEnd where
  /-- Nothing is on its way. -/
  | idle
  /-- A turn was never finished. -/
  | stalled
  | broken (o : Overflow)
  /-- A turn has no time at which it could be due. -/
  | undue (f : Schedule.Failure)
  /-- A listed pod has no name. -/
  | nameless

/-- What is said of an end that the loop does not survive. -/
def WatchEnd.failure? : WatchEnd → Option String
  | .idle | .stalled => none
  | .broken o => some o.message
  | .undue f => some f.message
  | .nameless => some namelessMessage

/-- Takes turns at pods, a limited number of them. The timer is gone once nothing is begun any
more, so that it refuses no time after that. -/
def turns (settings : Settings) (span : Span) : Nat → List Due → Session → WatchEnd × Session
  | 0, _, s => (.idle, s)
  | _, [], s => (.idle, s)
  | n + 1, d :: rest, s =>
    if span.isOver (max s.clock d.time * 1000) then (.idle, s)
    else
      match ({ s with clock := max s.clock d.time } : Session).hold
          (Tracker.turn settings d.pod) with
      | (.done ⟨result, .awaitChange⟩, s) => turns settings span n rest (s.note result.line)
      | (.done ⟨result, .requeue delay⟩, s) =>
        match Schedule.due? s.clock delay with
        | .error f => (.undue f, s)
        | .ok time =>
          let s := s.note result.line
          if span.isOver (s.clock * 1000) || Schedule.isTaken d.time time then
            turns settings span n (enqueue ⟨time, d.pod⟩ rest) s
          else (.undue .beyondTimer, s)
      | (.stalled, s) => (.stalled, (turns settings span n rest s).2)
      | (.broken o, s) => (.broken o, s)

/-- How many requests the rules are for at most. -/
def firings (rules : List Rule) : Nat := rules.foldr (fun r n => max r.times 1 + n) 0

/-- How many turns are taken at most in a number of seconds. Turns without a delay do not let
time pass. If they come to an end, then because something has changed: a few turns after the last
request that a rule was for, nothing does any more. -/
def maxTurns (seconds : Nat) (rules : List Rule) (pods : Nat) : Nat :=
  4 * (seconds + firings rules + 1) * pods

/-- How many lists are asked for at most in a number of seconds: a wait is over half a second. -/
def maxLists (seconds : Nat) : Nat := 2 * seconds + 1

/-- Lists the pods to take turns at and takes the turns. The list is asked for after so many
milliseconds, and again after a wait if it fails and the loop goes on for so long. -/
def listing (settings : Settings) (span : Span) :
    Nat → (time wait : Nat) → Session → WatchEnd × Session
  | 0, _, _, s => (.idle, s)
  | n + 1, time, wait, s =>
    match ({ s with clock := time / 1000 } : Session).hold (Tracker.listPods settings) with
    | (.done (.ok pods), s) =>
      if pods.any (·.metadata.name.isNone) then (.nameless, s)
      else
        turns settings span (maxTurns span.seconds s.cluster.rules pods.length)
          (pods.map fun p => ⟨s.clock, p⟩) s
    | (.done (.error error), s) =>
      let s := s.note (Tracker.Result.watchFailed error.message).line
      if span.isOver (time + wait) then (.idle, s)
      else listing settings span n (time + wait) (Schedule.nextWait wait) s
    | (.stalled, s) => (.idle, s)
    | (.broken o, s) => (.broken o, s)

/-- Watches a cluster. -/
def watch (settings : Settings) (span : Span) (c : Cluster) : WatchEnd × Session :=
  let s := Session.start c (some span.left)
  if span.isOver 0 then (.idle, s)
  else
    let (ending, s) := listing settings span (maxLists span.seconds) 0 Schedule.firstWait
      (s.note (Tracker.watchLine settings))
    match span.terminate, ending with
    | true, .idle => (.idle, s.note Tracker.stoppedLine)
    | _, _ => (ending, s)

end SparkLedger.Cluster

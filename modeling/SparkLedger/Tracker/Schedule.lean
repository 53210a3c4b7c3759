import SparkLedger.Ranged

/-!
# When the agent does something again

A delay counts from the end of a turn. The clock that it is added to reads a signed 64-bit number
of seconds, and had been running before the agent was started. The timer that wakes the agent
takes only what is due within a fixed span after the turn was due. A list of pods that fails is
asked for again after waits that double.

* `due?_eq_ok_iff`: a turn is due exactly after its delay, if the clock can show that time.
-/

namespace SparkLedger.Tracker.Schedule

/-- Why a turn cannot be due after a delay. -/
inductive Failure where
  /-- The clock cannot show the time. -/
  | beyondClock
  /-- The timer does not take the time. -/
  | beyondTimer
  deriving DecidableEq, Repr

/-- What a failure says. -/
def Failure.message : Failure → String
  | .beyondClock => "overflow when adding duration to instant"
  | .beyondTimer => "invalid deadline; err=Invalid"

/-- What the clock read when the agent was started: at least an hour. -/
def clockAtStart : Nat := 3600

/-- The last second that the clock can show. -/
def clockEnd : Nat := 9223372036854775807

/-- The span of the timer, in milliseconds. -/
def timerSpan : Nat := 68719476735

/-- When a turn that has ended is due again, in seconds since the start. -/
def due? (ended : Nat) (delay : Seconds) : Except Failure Nat :=
  if clockAtStart + ended + delay.toNat ≤ clockEnd then .ok (ended + delay.toNat)
  else .error .beyondClock

theorem due?_eq_ok_iff {ended time : Nat} {delay : Seconds} :
    due? ended delay = .ok time ↔
      time = ended + delay.toNat ∧ clockAtStart + time ≤ clockEnd := by
  unfold due?
  split
  · simp only [Except.ok.injEq]
    omega
  · simp only [reduceCtorEq, false_iff]
    omega

/-- Whether the timer takes a turn that is due then, after one that was due before. -/
def isTaken (before time : Nat) : Bool := (time - before) * 1000 ≤ timerSpan

/-- The wait after the first failure of a list, in milliseconds. Waits are scattered; this and
those that follow are the middle of where they fall. -/
def firstWait : Nat := 800

/-- The wait after a failure that came after another wait. -/
def nextWait (wait : Nat) : Nat := min (2 * wait) 30000

end SparkLedger.Tracker.Schedule

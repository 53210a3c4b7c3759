import SparkLedger.Json.Arrangement
import SparkLedger.Json.Record

/-!
# Run statistics of an application

The totals of an application's runs so far, and its attempts as the Spark API lists them.
-/

namespace SparkLedger.Application

/-- One attempt to run an application; times are milliseconds since 1970. -/
@[ext]
structure Attempt where
  startTime : Signed64
  endTime : Signed64
  lastUpdated : Signed64
  completed : Bool
  /-- The version of Spark that ran the attempt. -/
  sparkVersion : String
  deriving DecidableEq

namespace Attempt

/-- The record of an attempt. -/
def toJson (a : Attempt) : Json :=
  .obj [("appSparkVersion", .str a.sparkVersion), ("completed", .bool a.completed),
    ("endTimeEpoch", .int a.endTime.val), ("lastUpdatedEpoch", .int a.lastUpdated.val),
    ("startTimeEpoch", .int a.startTime.val)]

/-- The order in which the members of an attempt are shown. -/
def arrangement : Json.Arrangement :=
  .ofFields ["startTimeEpoch", "endTimeEpoch", "lastUpdatedEpoch", "completed", "appSparkVersion"]

/-- Reads a record of an attempt. -/
def ofJson? : Json → Option Attempt := Json.Record.read do
  let startTime ← .required "startTimeEpoch" Json.asRanged?
  let endTime ← .required "endTimeEpoch" Json.asRanged?
  let lastUpdated ← .required "lastUpdatedEpoch" Json.asRanged?
  let completed ← .required "completed" Json.asBool?
  let sparkVersion ← .defaulted "appSparkVersion" Json.asString? ""
  return ⟨startTime, endTime, lastUpdated, completed, sparkVersion⟩

end Attempt

/-- Totals over all stages counted so far, and the attempts. -/
@[ext]
structure Statistics where
  totalInputBytes : Signed64
  totalOutputBytes : Signed64
  totalCpuTime : Signed64
  attempts : List Attempt
  deriving DecidableEq

namespace Statistics

/-- Nothing counted, no attempts. -/
def zero : Statistics := ⟨0, 0, 0, []⟩

instance : Inhabited Statistics := ⟨zero⟩

/-- The record of the statistics. -/
def toJson (s : Statistics) : Json :=
  .obj [("attempts", .arr (s.attempts.map Attempt.toJson)),
    ("totalExecutorCpuTime", .int s.totalCpuTime.val),
    ("totalInputBytes", .int s.totalInputBytes.val),
    ("totalOutputBytes", .int s.totalOutputBytes.val)]

/-- The order in which the members of statistics are shown. -/
def arrangement : Json.Arrangement :=
  .record [("totalInputBytes", .plain), ("totalOutputBytes", .plain),
    ("totalExecutorCpuTime", .plain), ("attempts", .list Attempt.arrangement)]

/-- Reads a record of statistics. -/
def ofJson? : Json → Option Statistics := Json.Record.read do
  let totalInputBytes ← .required "totalInputBytes" Json.asRanged?
  let totalOutputBytes ← .required "totalOutputBytes" Json.asRanged?
  let totalCpuTime ← .required "totalExecutorCpuTime" Json.asRanged?
  let attempts ← .defaulted "attempts" (Json.asList? Attempt.ofJson?) []
  return ⟨totalInputBytes, totalOutputBytes, totalCpuTime, attempts⟩

end Statistics

end SparkLedger.Application

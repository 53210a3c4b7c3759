import SparkLedger.Stage.Basic

/-!
# Reports of the Spark API

What the API says of an application, as far as it is read here. Every field has a default, and
fields that are not known are skipped.
-/

namespace SparkLedger.Rest

open Json.Record (defaulted nullable)
open Json (asString? asBool? asRanged? asList? asFloat?)

/-- One attempt of an application. -/
structure AttemptReport where
  attemptId : Option String
  startTime : Signed64
  endTime : Signed64
  lastUpdated : Signed64
  duration : Signed64
  sparkUser : String
  completed : Bool
  sparkVersion : String
  deriving DecidableEq

/-- Reads an attempt. -/
def AttemptReport.ofJson? : Json → Option AttemptReport := Json.Record.read do
  let attemptId ← nullable "attemptId" asString?
  let startTime ← defaulted "startTimeEpoch" asRanged? 0
  let endTime ← defaulted "endTimeEpoch" asRanged? 0
  let lastUpdated ← defaulted "lastUpdatedEpoch" asRanged? 0
  let duration ← defaulted "duration" asRanged? 0
  let sparkUser ← defaulted "sparkUser" asString? ""
  let completed ← defaulted "completed" asBool? false
  let sparkVersion ← defaulted "appSparkVersion" asString? ""
  return ⟨attemptId, startTime, endTime, lastUpdated, duration, sparkUser, completed, sparkVersion⟩

/-- An application. -/
structure ApplicationReport where
  id : String
  name : String
  attempts : List AttemptReport
  deriving DecidableEq

/-- Reads an application. -/
def ApplicationReport.ofJson? : Json → Option ApplicationReport := Json.Record.read do
  let id ← defaulted "id" asString? ""
  let name ← defaulted "name" asString? ""
  let attempts ← defaulted "attempts" (asList? AttemptReport.ofJson?) []
  return ⟨id, name, attempts⟩

/-- What an application runs on. -/
structure RuntimeReport where
  javaVersion : String
  javaHome : String
  scalaVersion : String
  deriving DecidableEq

/-- Reads a runtime. -/
def RuntimeReport.ofJson? : Json → Option RuntimeReport := Json.Record.read do
  let javaVersion ← defaulted "javaVersion" asString? ""
  let javaHome ← defaulted "javaHome" asString? ""
  let scalaVersion ← defaulted "scalaVersion" asString? ""
  return ⟨javaVersion, javaHome, scalaVersion⟩

/-- Properties as lists of texts; a well-formed one is a key and a value. -/
abbrev Tuples := List (List String)

/-- Reads properties. -/
def Tuples.ofJson? : Json → Option Tuples := asList? (asList? asString?)

/-- The environment of an application. -/
structure EnvironmentReport where
  runtime : RuntimeReport
  sparkProperties : Tuples
  hadoopProperties : Tuples
  systemProperties : Tuples
  deriving DecidableEq

/-- Reads an environment. -/
def EnvironmentReport.ofJson? : Json → Option EnvironmentReport := Json.Record.read do
  let runtime ← defaulted "runtime" RuntimeReport.ofJson? ⟨"", "", ""⟩
  let sparkProperties ← defaulted "sparkProperties" Tuples.ofJson? []
  let hadoopProperties ← defaulted "hadoopProperties" Tuples.ofJson? []
  let systemProperties ← defaulted "systemProperties" Tuples.ofJson? []
  return ⟨runtime, sparkProperties, hadoopProperties, systemProperties⟩

/-- An executor. -/
structure ExecutorReport where
  id : String
  hostPort : String
  isActive : Bool
  totalCores : Signed64
  activeTasks : Signed64
  failedTasks : Signed64
  completedTasks : Signed64
  totalTasks : Signed64
  totalDuration : Signed64
  totalInputBytes : Signed64
  totalShuffleRead : Signed64
  totalShuffleWrite : Signed64
  maxMemory : Signed64
  deriving DecidableEq

/-- Reads an executor. -/
def ExecutorReport.ofJson? : Json → Option ExecutorReport := Json.Record.read do
  let id ← defaulted "id" asString? ""
  let hostPort ← defaulted "hostPort" asString? ""
  let isActive ← defaulted "isActive" asBool? false
  let totalCores ← defaulted "totalCores" asRanged? 0
  let activeTasks ← defaulted "activeTasks" asRanged? 0
  let failedTasks ← defaulted "failedTasks" asRanged? 0
  let completedTasks ← defaulted "completedTasks" asRanged? 0
  let totalTasks ← defaulted "totalTasks" asRanged? 0
  let totalDuration ← defaulted "totalDuration" asRanged? 0
  let totalInputBytes ← defaulted "totalInputBytes" asRanged? 0
  let totalShuffleRead ← defaulted "totalShuffleRead" asRanged? 0
  let totalShuffleWrite ← defaulted "totalShuffleWrite" asRanged? 0
  let maxMemory ← defaulted "maxMemory" asRanged? 0
  return ⟨id, hostPort, isActive, totalCores, activeTasks, failedTasks, completedTasks,
    totalTasks, totalDuration, totalInputBytes, totalShuffleRead, totalShuffleWrite, maxMemory⟩

/-- The statistics of a streaming application. -/
structure StreamingReport where
  startTime : String
  batchDuration : Signed64
  receivers : Signed64
  activeReceivers : Signed64
  inactiveReceivers : Signed64
  totalCompletedBatches : Signed64
  retainedCompletedBatches : Signed64
  activeBatches : Signed64
  processedRecords : Signed64
  receivedRecords : Signed64
  avgInputRate : Option Binary64
  avgSchedulingDelay : Option Signed64
  avgProcessingTime : Option Signed64
  avgTotalDelay : Option Signed64
  deriving DecidableEq

/-- Reads streaming statistics. -/
def StreamingReport.ofJson? : Json → Option StreamingReport := Json.Record.read do
  let startTime ← defaulted "startTime" asString? ""
  let batchDuration ← defaulted "batchDuration" asRanged? 0
  let receivers ← defaulted "numReceivers" asRanged? 0
  let activeReceivers ← defaulted "numActiveReceivers" asRanged? 0
  let inactiveReceivers ← defaulted "numInactiveReceivers" asRanged? 0
  let totalCompletedBatches ← defaulted "numTotalCompletedBatches" asRanged? 0
  let retainedCompletedBatches ← defaulted "numRetainedCompletedBatches" asRanged? 0
  let activeBatches ← defaulted "numActiveBatches" asRanged? 0
  let processedRecords ← defaulted "numProcessedRecords" asRanged? 0
  let receivedRecords ← defaulted "numReceivedRecords" asRanged? 0
  let avgInputRate ← nullable "avgInputRate" asFloat?
  let avgSchedulingDelay ← nullable "avgSchedulingDelay" asRanged?
  let avgProcessingTime ← nullable "avgProcessingTime" asRanged?
  let avgTotalDelay ← nullable "avgTotalDelay" asRanged?
  return ⟨startTime, batchDuration, receivers, activeReceivers, inactiveReceivers,
    totalCompletedBatches, retainedCompletedBatches, activeBatches, processedRecords,
    receivedRecords, avgInputRate, avgSchedulingDelay, avgProcessingTime, avgTotalDelay⟩

end SparkLedger.Rest

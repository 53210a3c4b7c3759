import SparkLedger.Ranged
import SparkLedger.SortedMap
import SparkLedger.Log
import SparkLedger.Dialogue
import SparkLedger.Settings
import SparkLedger.Wire
import SparkLedger.Text.Blank
import SparkLedger.Text.Calendar
import SparkLedger.Text.Decimal
import SparkLedger.Text.FormEncoding
import SparkLedger.Text.Quoted
import SparkLedger.Text.Redaction
import SparkLedger.Text.Timestamp
import SparkLedger.Text.Unprinted
import SparkLedger.Json.Arrangement
import SparkLedger.Json.Basic
import SparkLedger.Json.Binary64
import SparkLedger.Json.MergePatch
import SparkLedger.Json.Printer
import SparkLedger.Json.Reader
import SparkLedger.Json.Record
import SparkLedger.Json.Shortest
import SparkLedger.Object.Metadata
import SparkLedger.Object.Resource
import SparkLedger.Pod.Basic
import SparkLedger.Pod.Label
import SparkLedger.Pod.Snapshot
import SparkLedger.Stage.Basic
import SparkLedger.Stage.Ledger
import SparkLedger.Stage.Update
import SparkLedger.Application.Basic
import SparkLedger.Application.Heritage
import SparkLedger.Application.Statistics
import SparkLedger.Kube.Client
import SparkLedger.Kube.Error
import SparkLedger.Kube.Reply
import SparkLedger.Kube.Request
import SparkLedger.Kube.Url
import SparkLedger.Rest.Client
import SparkLedger.Rest.Endpoint
import SparkLedger.Rest.Error
import SparkLedger.Rest.Recorded
import SparkLedger.Rest.Report
import SparkLedger.Rest.Transport
import SparkLedger.Info.Basic
import SparkLedger.Info.Locate
import SparkLedger.Tracker.Agent
import SparkLedger.Tracker.Driver
import SparkLedger.Tracker.Error
import SparkLedger.Tracker.Executor
import SparkLedger.Tracker.Finalizer
import SparkLedger.Tracker.Interface
import SparkLedger.Tracker.Outcome
import SparkLedger.Tracker.Reconcile
import SparkLedger.Tracker.Result
import SparkLedger.Tracker.Schedule
import SparkLedger.Tracker.Store
import SparkLedger.Tracker.Turn
import SparkLedger.Tracker.Work
import SparkLedger.Cluster.Basic
import SparkLedger.Cluster.Serve
import SparkLedger.Cluster.Session
import SparkLedger.Cluster.Watch
import SparkLedger.Proofs.Stage.Amounts
import SparkLedger.Proofs.Stage.Latest
import SparkLedger.Proofs.Stage.Memory
import SparkLedger.Proofs.Stage.Overflow
import SparkLedger.Proofs.Stage.Count
import SparkLedger.Proofs.Stage.Run
import SparkLedger.Proofs.Stage.Bounds
import SparkLedger.Proofs.Stage.Conservation
import SparkLedger.Proofs.Stage.Coverage
import SparkLedger.Proofs.Stage.Recount
import SparkLedger.Proofs.Stage.Balance
import SparkLedger.Proofs.Stage.Retries
import SparkLedger.Proofs.Stage.Returns
import SparkLedger.Proofs.Stage.Holes
import SparkLedger.Proofs.Stage.First
import SparkLedger.Proofs.Stage.Order
import SparkLedger.Proofs.Stage.Growth
import SparkLedger.Proofs.Json.Parts
import SparkLedger.Proofs.Json.MergePatch
import SparkLedger.Proofs.Json.Untouched
import SparkLedger.Proofs.Json.Record
import SparkLedger.Proofs.Application.Codec
import SparkLedger.Proofs.Object.Patch
import SparkLedger.Proofs.Dialogue
import SparkLedger.Proofs.Dialogue.Held
import SparkLedger.Proofs.Tracker.Work
import SparkLedger.Proofs.Tracker.Requests
import SparkLedger.Proofs.Info.Fetch
import SparkLedger.Proofs.Info.Route
import SparkLedger.Proofs.Tracker.Revision
import SparkLedger.Proofs.Tracker.Discipline
import SparkLedger.Proofs.Tracker.Executors
import SparkLedger.Proofs.Tracker.Roster
import SparkLedger.Proofs.Tracker.Heritage
import SparkLedger.Proofs.Tracker.Snapshots
import SparkLedger.Proofs.Tracker.Totals
import SparkLedger.Proofs.Json.Reading
import SparkLedger.Proofs.Json.Follows
import SparkLedger.Proofs.Json.Extend
import SparkLedger.Proofs.Json.Printed
import SparkLedger.Proofs.Json.Lexemes
import SparkLedger.Proofs.Json.Reread
import SparkLedger.Proofs.Application.Extras
import SparkLedger.Proofs.Application.Stored
import SparkLedger.Proofs.Application.Storage
import SparkLedger.Proofs.Object.Amend
import SparkLedger.Proofs.Pod.Codec
import SparkLedger.Proofs.Object.Stored
import SparkLedger.Proofs.Object.Conditional
import SparkLedger.Proofs.Object.Patched
import SparkLedger.Proofs.Tracker.Footprint
import SparkLedger.Proofs.Info.Sources
import SparkLedger.Proofs.Tracker.Site
import SparkLedger.Proofs.Tracker.Writes
import SparkLedger.Proofs.Tracker.Attempt
import SparkLedger.Proofs.Tracker.Plan
import SparkLedger.Proofs.Tracker.Course
import SparkLedger.Proofs.Tracker.Edits
import SparkLedger.Proofs.Tracker.Yard
import SparkLedger.Proofs.Tracker.Surgery
import SparkLedger.Proofs.Tracker.Alone
import SparkLedger.Proofs.Tracker.Stages
import SparkLedger.Proofs.Tracker.Release
import SparkLedger.Proofs.Tracker.Ownership
import SparkLedger.Proofs.Tracker.Again
import SparkLedger.Proofs.Tracker.Repeat
import SparkLedger.Proofs.Tracker.Retry
import SparkLedger.Proofs.Tracker.Identity
import SparkLedger.Proofs.Tracker.Holding
import SparkLedger.Proofs.Tracker.Undisturbed
import SparkLedger.Proofs.Tracker.Independence
import SparkLedger.Proofs.Tracker.Failures
import SparkLedger.Proofs.Tracker.Cascade
import SparkLedger.Proofs.Info.Clients
import SparkLedger.Proofs.Json.Edits
import SparkLedger.Proofs.Stage.Restated
import SparkLedger.Proofs.Rest.Tolerance
import SparkLedger.Proofs.Rest.Endpoint
import SparkLedger.Proofs.Text.Numeral
import SparkLedger.Proofs.Settings

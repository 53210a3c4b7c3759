import SparkLedger.Proofs.Stage.Bounds
import SparkLedger.Proofs.Stage.Restated
import SparkLedger.Rest.Client

/-!
# Reports of servers to come

Servers of other versions may say more in a report, say it in another order, leave out what
defaults, and give stages a status that is not known here. All this can be read, and none of it
changes what is read of the rest.

* `Call.Edit`: one edit of the body that answers a call, in any of its records.
* `Call.keeps_read?`: no such edit shows in the report.
* `reports_are_forward_compatible`: any number of edits, and stages with an unknown status, up to
  what the ledger makes of them.
-/

namespace SparkLedger.Rest

open Json (Declaration Declarations ItemEdit Keeps RecordEdit)
open Json (asString? asList? asRanged? asFloat? keeps_asList?)
open Json.Record (carries_defaulted carries_leaf carries_pure keeps_read)

/-! ## The records of the reports -/

/-- The members of an attempt. -/
def AttemptReport.declarations : Declarations := [
  ("attemptId", .nullable asString?),
  ("startTimeEpoch", .count),
  ("endTimeEpoch", .count),
  ("lastUpdatedEpoch", .count),
  ("duration", .count),
  ("sparkUser", .text),
  ("completed", .flag),
  ("appSparkVersion", .text)]

theorem AttemptReport.keeps_ofJson? : Keeps (RecordEdit declarations) AttemptReport.ofJson? := by
  refine keeps_read fun ms ns h => ?_
  iterate 8 refine (carries_leaf h rfl).bind fun _ => ?_
  exact carries_pure rfl

/-- The members of an application, whose attempts are records. -/
def ApplicationReport.declarations : Declarations := [
  ("id", .text),
  ("name", .text),
  ("attempts", .nested (asList? AttemptReport.ofJson?) []
    (ItemEdit (RecordEdit AttemptReport.declarations)))]

theorem ApplicationReport.keeps_ofJson? :
    Keeps (RecordEdit declarations) ApplicationReport.ofJson? := by
  refine keeps_read fun ms ns h => ?_
  iterate 2 refine (carries_leaf h rfl).bind fun _ => ?_
  refine (carries_defaulted h (keeps_asList? AttemptReport.keeps_ofJson?) rfl).bind fun _ => ?_
  exact carries_pure rfl

/-- The members of a runtime. -/
def RuntimeReport.declarations : Declarations := [
  ("javaVersion", .text),
  ("javaHome", .text),
  ("scalaVersion", .text)]

theorem RuntimeReport.keeps_ofJson? : Keeps (RecordEdit declarations) RuntimeReport.ofJson? := by
  refine keeps_read fun ms ns h => ?_
  iterate 3 refine (carries_leaf h rfl).bind fun _ => ?_
  exact carries_pure rfl

/-- The members of an environment, whose runtime is a record. -/
def EnvironmentReport.declarations : Declarations := [
  ("runtime", .nested RuntimeReport.ofJson? ⟨"", "", ""⟩ (RecordEdit RuntimeReport.declarations)),
  ("sparkProperties", .leaf Tuples.ofJson? []),
  ("hadoopProperties", .leaf Tuples.ofJson? []),
  ("systemProperties", .leaf Tuples.ofJson? [])]

theorem EnvironmentReport.keeps_ofJson? :
    Keeps (RecordEdit declarations) EnvironmentReport.ofJson? := by
  refine keeps_read fun ms ns h => ?_
  refine (carries_defaulted h RuntimeReport.keeps_ofJson? rfl).bind fun _ => ?_
  iterate 3 refine (carries_leaf h rfl).bind fun _ => ?_
  exact carries_pure rfl

/-- The members of an executor. -/
def ExecutorReport.declarations : Declarations := [
  ("id", .text),
  ("hostPort", .text),
  ("isActive", .flag),
  ("totalCores", .count),
  ("activeTasks", .count),
  ("failedTasks", .count),
  ("completedTasks", .count),
  ("totalTasks", .count),
  ("totalDuration", .count),
  ("totalInputBytes", .count),
  ("totalShuffleRead", .count),
  ("totalShuffleWrite", .count),
  ("maxMemory", .count)]

theorem ExecutorReport.keeps_ofJson? : Keeps (RecordEdit declarations) ExecutorReport.ofJson? := by
  refine keeps_read fun ms ns h => ?_
  iterate 13 refine (carries_leaf h rfl).bind fun _ => ?_
  exact carries_pure rfl

/-- The members of streaming statistics. -/
def StreamingReport.declarations : Declarations := [
  ("startTime", .text),
  ("batchDuration", .count),
  ("numReceivers", .count),
  ("numActiveReceivers", .count),
  ("numInactiveReceivers", .count),
  ("numTotalCompletedBatches", .count),
  ("numRetainedCompletedBatches", .count),
  ("numActiveBatches", .count),
  ("numProcessedRecords", .count),
  ("numReceivedRecords", .count),
  ("avgInputRate", .nullable asFloat?),
  ("avgSchedulingDelay", .nullable fun j => (asRanged? j : Option Signed64)),
  ("avgProcessingTime", .nullable fun j => (asRanged? j : Option Signed64)),
  ("avgTotalDelay", .nullable fun j => (asRanged? j : Option Signed64))]

theorem StreamingReport.keeps_ofJson? :
    Keeps (RecordEdit declarations) StreamingReport.ofJson? := by
  refine keeps_read fun ms ns h => ?_
  iterate 14 refine (carries_leaf h rfl).bind fun _ => ?_
  exact carries_pure rfl

/-! ## The answers of the calls -/

/-- One edit of an answer, in any object of it that stands for a record. The metrics have none:
they are kept as they are. -/
def Call.Edit : Call → Json → Json → Prop
  | .application => RecordEdit ApplicationReport.declarations
  | .environment => RecordEdit EnvironmentReport.declarations
  | .stages => ItemEdit (RecordEdit Stage.declarations)
  | .executors => ItemEdit (RecordEdit ExecutorReport.declarations)
  | .streaming => RecordEdit StreamingReport.declarations
  | .metrics => fun _ _ => False

theorem Call.keeps_read? : (call : Call) → Keeps call.Edit call.read?
  | .application => ApplicationReport.keeps_ofJson?
  | .environment => EnvironmentReport.keeps_ofJson?
  | .stages => keeps_asList? Stage.keeps_ofJson?
  | .executors => keeps_asList? ExecutorReport.keeps_ofJson?
  | .streaming => StreamingReport.keeps_ofJson?
  | .metrics => Json.keeps_none _

/-- Every answer that can be read reads the same after any number of edits: with members that are
not declared, with the members in another order, and without declared members that say what their
absence says, in any of its records. And with any text that is no known status as the status of a
stage it reads the same but for this stage, which is not finalized any more. Where its attempt is
the one that counts, a count has the stage as active, and the watermark after it is the largest of
the one before and of the finalized ids of other stages. -/
theorem reports_are_forward_compatible :
    (∀ (call : Call) (j j' : Json) (report : call.Report),
      Relation.ReflTransGen call.Edit j j' → call.read? j = some report →
        call.read? j' = some report) ∧
    ∀ (xs : List Json) (w : Window) (i : Nat) (j j' : Json) (status : String),
      Window.ofJson? (.arr xs) = some w → xs[i]? = some j → Stage.Restated status j j' →
      status ∉ Stage.Status.names →
      ∃ stage, w[i]? = some stage ∧
        Window.ofJson? (.arr (xs.set i j')) = some (w.obscure i) ∧
        stage.obscured.isFinalized = false ∧
        ∀ l : Ledger, (w.obscure i).latestAttempt? stage.id = some stage.obscured →
          (l.Moderate → (w.obscure i).Moderate →
            ∃ a, l.aggregate (w.obscure i) = .ok a) ∧
          ∀ a, l.aggregate (w.obscure i) = .ok a →
            a.ledger.active.find? stage.id = some stage.metrics ∧
            IsGreatest (insert l.watermark.val
                { id | ∃ t ∈ (w.obscure i).latest,
                  t.id ≠ stage.id ∧ t.isFinalized = true ∧ t.id.val = id })
              a.ledger.watermark.val := by
  refine ⟨fun call j j' report hedits hread => call.keeps_read?.many hedits hread, ?_⟩
  intro xs w i j j' status hw hi hrestated hstatus
  obtain ⟨stage, hget, hset⟩ := Window.ofJson?_set_of_restated hrestated hstatus hi hw
  refine ⟨stage, hget, hset, stage.isFinalized_obscured, fun l hlatest => ?_⟩
  refine ⟨Ledger.exists_aggregate, fun a ha => ?_⟩
  have hopen := stage.isFinalized_obscured
  exact ⟨@Ledger.find?_active_of_aggregate _ _ _ stage.obscured ha hlatest hopen,
    @Ledger.isGreatest_watermark_of_aggregate _ _ _ stage.obscured ha hlatest hopen⟩

/-- An application, as an earlier server reports it, which spells out that it takes no time. -/
def earlierAnswer : Json :=
  .obj [("id", .str "app"),
    ("attempts", .arr [.obj [("completed", .bool true), ("duration", .int 0)]])]

/-- The same application, as a later server reports it. -/
def laterAnswer : Json :=
  .obj [("attempts", .arr [.obj [("completed", .bool true)]]), ("driverHost", .null),
    ("id", .str "app")]

theorem earlierAnswer_edits_laterAnswer :
    Relation.ReflTransGen Call.application.Edit earlierAnswer laterAnswer := by
  have hattempt : RecordEdit AttemptReport.declarations
      (.obj [("completed", .bool true), ("duration", .int 0)]) (.obj [("completed", .bool true)]) :=
    .members (@Json.MemberEdit.omitted _ [("completed", .bool true)] [] "duration" _ _ rfl rfl)
  have hinside : Call.application.Edit earlierAnswer
      (.obj [("id", .str "app"), ("attempts", .arr [.obj [("completed", .bool true)]])]) :=
    .members (@Json.MemberEdit.inside _ [("id", .str "app")] [] "attempts" _ _ _ rfl
      (@ItemEdit.item _ _ 0 _ _ rfl hattempt))
  have hpermuted : Call.application.Edit
      (.obj [("id", .str "app"), ("attempts", .arr [.obj [("completed", .bool true)]])])
      (.obj [("attempts", .arr [.obj [("completed", .bool true)]]), ("id", .str "app")]) :=
    .members (.permuted (.swap _ _ _))
  have hadded : Call.application.Edit
      (.obj [("attempts", .arr [.obj [("completed", .bool true)]]), ("id", .str "app")])
      laterAnswer :=
    .members (@Json.MemberEdit.added _ [("attempts", _)] [("id", _)] "driverHost" .null rfl)
  exact ((Relation.ReflTransGen.single hinside).tail hpermuted).tail hadded

/-- A stage that is finalized, as a server reports it. -/
def finalizedEntry : Json :=
  .obj [("status", .str "COMPLETE"), ("stageId", .int 23), ("inputBytes", .int 150)]

/-- The same stage, as a later server reports it. -/
def archivedEntry : Json :=
  .obj [("status", .str "ARCHIVED"), ("stageId", .int 23), ("inputBytes", .int 150)]

/-- A poll that lists the stage beside another one. -/
def earlierPoll : List Json :=
  [finalizedEntry, .obj [("stageId", .int 19), ("status", .str "FAILED")]]

/-- The stage of these entries. -/
def finalizedStage : Stage :=
  ⟨.complete, ⟨23, by omega, by omega⟩, 0, "", 0, ⟨150, by omega, by omega⟩, 0, 0⟩

/-- The window of the poll. -/
def earlierWindow : Window :=
  [finalizedStage, ⟨.failed, ⟨19, by omega, by omega⟩, 0, "", 0, 0, 0, 0⟩]

theorem reports_are_forward_compatible_laterAnswer :
    ApplicationReport.ofJson? laterAnswer =
        some ⟨"app", "", [⟨none, 0, 0, 0, 0, "", true, ""⟩]⟩ ∧
      Window.ofJson? (.arr (earlierPoll.set 0 archivedEntry)) = some (earlierWindow.obscure 0) ∧
      ∃ a, Ledger.empty.aggregate (earlierWindow.obscure 0) = .ok a ∧
        a.ledger.watermark.val = 19 ∧
        a.ledger.active.find? finalizedStage.id = some finalizedStage.metrics := by
  obtain ⟨hedits, hstatus⟩ := reports_are_forward_compatible
  have hput : Stage.Restated "ARCHIVED" finalizedEntry archivedEntry :=
    .members (@Json.Put.replaced _ _ [] [("stageId", .int 23), ("inputBytes", .int 150)] _)
  obtain ⟨stage, hstage, hlater, -, hcount⟩ :=
    hstatus earlierPoll earlierWindow 0 _ _ _ rfl rfl hput (by decide)
  cases hstage
  obtain ⟨a, ha⟩ : ∃ a, Ledger.empty.aggregate (earlierWindow.obscure 0) = .ok a := ⟨_, rfl⟩
  obtain ⟨hactive, -⟩ := (hcount .empty (by decide +kernel)).2 a ha
  refine ⟨hedits .application _ _ _ earlierAnswer_edits_laterAnswer rfl, hlater, a, ha, ?_, hactive⟩
  cases ha
  decide +kernel

end SparkLedger.Rest

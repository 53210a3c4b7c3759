import SparkLedger.Proofs.Json.Edits
import SparkLedger.Proofs.Stage.Memory

/-!
# Stages with another status

A server may say of a stage what is not known here. Such a stage can be read, with the unknown
status and all else as it was, and it is never finalized: where its attempt is the one that counts
the stage is active, and the watermark is that of the other stages.

* `Stage.declarations`, `Stage.keeps_ofJson?`: the edits that a stage does not show.
* `Stage.Restated`, `Stage.ofJson?_of_restated`: a stage with another text as its status.
* `Window.ofJson?_set_of_restated`: the window that such a stage is in.
* `Ledger.find?_active_of_aggregate`, `Ledger.isGreatest_watermark_of_aggregate`: what a count
  makes of a stage that is not finalized.
-/

namespace SparkLedger

open Json (Declarations RecordEdit Keeps Put)
open Json.Record (Carries carries_leaf carries_pure carries_put carries_put_of_ne keeps_read)

namespace Stage

/-- The members of a stage. -/
def declarations : Declarations := [
  ("status", .leaf Status.ofJson? .unknown),
  ("stageId", .count),
  ("attemptId", .count),
  ("name", .text),
  ("numTasks", .count),
  ("inputBytes", .count),
  ("outputBytes", .count),
  ("executorCpuTime", .count)]

theorem keeps_ofJson? : Keeps (RecordEdit declarations) Stage.ofJson? := by
  refine keeps_read fun ms ns h => ?_
  -- Field by field; each finds its own declaration by its name.
  iterate 8 refine (carries_leaf h rfl).bind fun _ => ?_
  exact carries_pure rfl

/-! ## Another status -/

/-- The texts that are a status of their own. -/
def Status.names : List String := ["ACTIVE", "COMPLETE", "PENDING", "FAILED", "SKIPPED"]

theorem Status.ofName_of_not_mem_names {s : String} (h : s ∉ names) : ofName s = .unknown := by
  simp only [names, List.mem_cons, List.not_mem_nil, or_false, not_or] at h
  obtain ⟨hactive, hcomplete, hpending, hfailed, hskipped⟩ := h
  rw [ofName, if_neg hactive, if_neg hcomplete, if_neg hpending, if_neg hfailed, if_neg hskipped]

/-- A stage with another text as its status, whether it had a status or not. -/
inductive Restated (s : String) : Json → Json → Prop where
  | members {ms ns : List (String × Json)} (h : Put "status" (.str s) ms ns) :
      Restated s (.obj ms) (.obj ns)

/-- The stage whose status is not known. -/
def obscured (s : Stage) : Stage := { s with status := .unknown }

theorem isFinalized_obscured (s : Stage) : s.obscured.isFinalized = false := rfl

theorem ofJson?_of_restated {s : String} {j j' : Json} {stage : Stage} (h : Restated s j j')
    (hs : s ∉ Status.names) (hstage : Stage.ofJson? j = some stage) :
    Stage.ofJson? j' = some stage.obscured := by
  obtain ⟨hput⟩ := h
  have hstatus : Status.ofJson? (.str s) = some .unknown :=
    congrArg some (Status.ofName_of_not_mem_names hs)
  refine Carries.read_obj (?_ : Carries _ _ obscured _ _) hstage
  refine (carries_put hput hstatus).bind fun _ => ?_
  iterate 7 refine (carries_put_of_ne hput (by decide)).bind fun _ => ?_
  exact carries_pure rfl

end Stage

/-- The window with the status of one of its stages not known. -/
def Window.obscure (w : Window) (i : Nat) : Window := w.modify i Stage.obscured

/-- A window with another status for one of its stages. -/
theorem Window.ofJson?_set_of_restated {s : String} {xs : List Json} {i : Nat} {j j' : Json}
    {w : Window} (h : Stage.Restated s j j') (hs : s ∉ Stage.Status.names) (hi : xs[i]? = some j)
    (hw : Window.ofJson? (.arr xs) = some w) :
    ∃ stage, w[i]? = some stage ∧
      Window.ofJson? (.arr (xs.set i j')) = some (w.obscure i) := by
  obtain ⟨stage, hstage, hget, hset⟩ := Json.exists_mapM_set hw hi
  refine ⟨stage, hget, ?_⟩
  rw [Window.obscure, List.modify_eq_set_getElem?, hget]
  exact hset _ _ (Stage.ofJson?_of_restated h hs hstage)

/-! ## What a count makes of it -/

namespace Ledger

variable {l : Ledger} {w : Window} {a : Aggregation} {s : Stage}

/-- A stage that is not finalized is active after a count. -/
theorem find?_active_of_aggregate (h : l.aggregate w = .ok a)
    (hs : w.latestAttempt? s.id = some s) (hopen : s.isFinalized = false) :
    a.ledger.active.find? s.id = some s.metrics := by
  rw [(aggregate_eq_ok h).1]
  exact (find?_active_after (Window.nodup_map_id_latest w)).2
    ⟨s, Window.mem_latest_iff.2 hs, rfl, hopen, rfl⟩

/-- A stage that is not finalized does not count for the watermark, which is the largest of the
one before and of the other finalized ids. -/
theorem isGreatest_watermark_of_aggregate (h : l.aggregate w = .ok a)
    (hs : w.latestAttempt? s.id = some s) (hopen : s.isFinalized = false) :
    IsGreatest (insert l.watermark.val
        { id | ∃ t ∈ w.latest, t.id ≠ s.id ∧ t.isFinalized = true ∧ t.id.val = id })
      a.ledger.watermark.val := by
  have hothers : { id | ∃ t ∈ w.latest, t.id ≠ s.id ∧ t.isFinalized = true ∧ t.id.val = id } =
      Window.finalizedIds [w] := by
    ext id
    constructor
    · rintro ⟨t, ht, -, hfinal, rfl⟩
      exact ⟨w, List.mem_singleton_self w, t, ht, hfinal, rfl⟩
    · rintro ⟨_, hw, t, ht, hfinal, rfl⟩
      cases List.mem_singleton.1 hw
      refine ⟨t, ht, fun hid => ?_, hfinal, rfl⟩
      rw [Window.eq_of_mem_latest ht (Window.mem_latest_iff.2 hs) hid, hopen] at hfinal
      cases hfinal
  rw [(aggregate_eq_ok h).1, hothers]
  exact isGreatest_watermark_afterAll l [w]

end Ledger

end SparkLedger

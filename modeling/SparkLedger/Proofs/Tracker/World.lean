import Mathlib.Logic.Function.Basic
import Mathlib.Logic.Relation
import SparkLedger.Cluster.Serve
import SparkLedger.Proofs.Info.Fetch
import SparkLedger.Tracker.Reconcile

/-!
# Reconciles beside each other

Any number of reconciles over one record, one exchange at a time and in any order. The server
gives the record a new version with each change, applies a patch only if it names the version that
is stored, and creates the record only if it is absent. Nobody else changes it. A request may fail
at any time, and the answer to a write may be lost after the write. What the reconciles ask of
pods and of other records is answered at will.

* `Slot`: the record in the server. `Slot.Writes`: the requests that change it.
  `Slot.Answers`: the answers that leave it as it is.
* `World`: the record, what every reconcile has exchanged so far, and the writes in their order.
* `Setup.Step`: one exchange of one reconcile. `Setup.Run`: any number of them.
-/

namespace SparkLedger.Tracker

open Dialogue (Transcript Exchange)
open Cluster (metadataText? withMetadata)

/-! ## The record in the server -/

/-- The server's place for one record. -/
structure Slot where
  /-- The record, if it is there. -/
  stored : Option Json
  /-- The versions that the record has had. -/
  given : List String

/-- The record that a question is about. -/
def Question.record? : Question → Option (String × String)
  | .getApplication ns name => some (ns, name)
  | .createApplication _ application => application.metadata.identity?
  | .patchApplication ns name _ => some (ns, name)
  | _ => none

/-- Whether a question changes a record. -/
def Question.isChange : Question → Bool
  | .createApplication .. => true
  | .patchApplication .. => true
  | _ => false

/-- The answer to a request that fails. -/
def Question.failed (error : Kube.Error) : (q : Question) → q.Answer
  | .getPod .. => (.error error : Except Kube.Error (Option Pod))
  | .patchPod .. => (.error error : Except Kube.Error Pod)
  | .getApplication .. => (.error error : Except Kube.Error (Option Application))
  | .createApplication .. => (.error error : Except Kube.Error Application)
  | .patchApplication .. => (.error error : Except Kube.Error Application)
  | .info .. => (.error .noClient : Except Info.Error Info)

/-- Whether an answer may be given without regard to the record: every record is read under its
own name, and no info is made up. -/
def Question.Allows : (q : Question) → q.Answer → Prop
  | .getApplication ns name, (.ok (some a) : Except Kube.Error (Option Application)) =>
    a.metadata.identity? = some (ns, name)
  | .info .., (.ok _ : Except Info.Error Info) => False
  | _, _ => True

namespace Slot

/-- A stored record as it is answered. -/
def answer (stored : Json) : Except Kube.Error Application :=
  match Application.ofJson? stored with
  | some a => .ok a
  | none => .error .undecodable

/-- The answer to reading the record. -/
def get (s : Slot) : Except Kube.Error (Option Application) :=
  match s.stored with
  | some j => (answer j).map some
  | none => .ok none

/-- Stores a record under a version. -/
def put (s : Slot) (version : String) (record : Json) : Slot where
  stored := some (withMetadata "resourceVersion" version record)
  given := version :: s.given

/-- The answer to a write: the record as it is stored then, unless the answer is lost. -/
def Replies (s : Slot) (a : Except Kube.Error Application) : Prop :=
  (∃ j, s.stored = some j ∧ a = answer j) ∨ ∃ error, a = .error error

/-- The requests that change the record, with their answers and the record after them. -/
inductive Writes (record : String × String) (s : Slot) :
    (q : Question) → q.Answer → Slot → Prop where
  | create {ns version uid : String} {application : Application}
      {a : Except Kube.Error Application}
      (hrecord : application.metadata.identity? = some record) (habsent : s.stored = none)
      (hfresh : version ∉ s.given)
      (ha : (s.put version (withMetadata "uid" uid application.toJson)).Replies a) :
      Writes record s (.createApplication ns application) a
        (s.put version (withMetadata "uid" uid application.toJson))
  | patch {ns name version : String} {p j : Json} {a : Except Kube.Error Application}
      (hrecord : (ns, name) = record) (hstored : s.stored = some j)
      (hversion : metadataText? p "resourceVersion" = metadataText? j "resourceVersion")
      (hfresh : version ∉ s.given) (ha : (s.put version (p.merge j)).Replies a) :
      Writes record s (.patchApplication ns name p) a (s.put version (p.merge j))

/-- The answers that leave the record as it is. -/
inductive Answers (record : String × String) (s : Slot) : (q : Question) → q.Answer → Prop where
  | read {ns name : String} (hrecord : (ns, name) = record) :
      Answers record s (.getApplication ns name) s.get
  /-- The record that is to be created is there. -/
  | exists {ns message : String} {application : Application}
      (hrecord : application.metadata.identity? = some record) (hstored : s.stored.isSome) :
      Answers record s (.createApplication ns application)
        (.error (.api 409 "AlreadyExists" message) : Except Kube.Error Application)
  /-- The record has another version than the patch names. -/
  | stale {ns name message : String} {p j : Json}
      (hrecord : (ns, name) = record) (hstored : s.stored = some j)
      (hversion : metadataText? p "resourceVersion" ≠ metadataText? j "resourceVersion") :
      Answers record s (.patchApplication ns name p)
        (.error (.api 409 "Conflict" message) : Except Kube.Error Application)
  /-- The question is not about the record. -/
  | elsewhere {q : Question} {a : q.Answer} (hrecord : q.record? ≠ some record) (ha : q.Allows a) :
      Answers record s q a
  | failed {q : Question} (error : Kube.Error) : Answers record s q (q.failed error)

end Slot

/-! ## Reconciles and their steps -/

/-- A read of a record with its answer. -/
def readOf (ns name : String) (a : Application) : Exchange Tracking :=
  ⟨.getApplication ns name, (.ok (some a) : Except Kube.Error (Option Application))⟩

/-- A successful fetch. -/
def fetchOf (driver : Pod) (applicationId : String) (recorded : Option Ledger) (info : Info) :
    Exchange Tracking :=
  ⟨.info driver applicationId recorded, (.ok info : Except Info.Error Info)⟩

/-- The record and the reconciles over it. -/
structure World where
  slot : Slot
  /-- What each reconcile has exchanged so far. -/
  said : Nat → Transcript Tracking
  /-- The stages that the fetch of each reconcile reported, once it has succeeded. -/
  window : Nat → Option Window
  /-- The requests that changed the record, and whose they were. -/
  writes : List (Nat × Question)

namespace World

/-- The record as it is read, if it is there. -/
def application? (w : World) : Option Application := w.slot.stored.bind Application.ofJson?

/-- The stages of those reconciles whose fetch has succeeded and that have changed the record, in
the order of the changes. -/
def windows (w : World) : List Window := w.writes.filterMap fun write => w.window write.1

/-- The world after one more exchange of a reconcile. -/
def tell (w : World) (i : Nat) (e : Exchange Tracking) : World :=
  { w with said := Function.update w.said i (w.said i ++ [e]) }

@[simp] theorem said_tell_self (w : World) (i : Nat) (e : Exchange Tracking) :
    (w.tell i e).said i = w.said i ++ [e] := Function.update_self ..

theorem said_tell_of_ne {w : World} {i k : Nat} {e : Exchange Tracking} (h : k ≠ i) :
    (w.tell i e).said k = w.said k := Function.update_of_ne h ..

/-- The world after a fetch that reported these stages. -/
def fetch (w : World) (i : Nat) (e : Exchange Tracking) (window : Window) : World :=
  { w.tell i e with window := Function.update w.window i (some window) }

/-- The world after a change of the record. -/
def write (w : World) (i : Nat) (q : Question) (a : q.Answer) (slot : Slot) : World :=
  { w.tell i ⟨q, a⟩ with
    slot
    writes := w.writes ++ [(i, q)] }

theorem windows_write (w : World) (i : Nat) (q : Question) (a : q.Answer) (slot : Slot) :
    (w.write i q a slot).windows = w.windows ++ (w.window i).toList := by
  have hlast : [(i, q)].filterMap (fun write => w.window write.1) = (w.window i).toList := by
    rw [List.filterMap_cons]
    cases w.window i <;> rfl
  rw [← hlast]
  exact List.filterMap_append

end World

/-- Which pods are reconciled, and which record is looked at. -/
structure Setup where
  runningRequeue : Seconds
  /-- Namespace and name of the pod that each reconcile is for. -/
  pods : Nat → String × String
  /-- Namespace and name of the record. -/
  record : String × String

namespace Setup

/-- A reconcile. -/
def work (S : Setup) (i : Nat) : Dialogue Tracking (Except Error Outcome) :=
  (reconcile S.runningRequeue (S.pods i).1 (S.pods i).2).run

/-- One exchange of one reconcile. -/
inductive Step (S : Setup) (w : World) : World → Prop where
  | heard {i : Nat} {q : Question} {a : q.Answer} (hasks : (S.work i).Asks (w.said i) q)
      (ha : w.slot.Answers S.record q a) : Step S w (w.tell i ⟨q, a⟩)
  | fetched {i : Nat} {driver : Pod} {applicationId : String} {recorded : Option Ledger}
      {window : Window} {info : Info}
      (hasks : (S.work i).Asks (w.said i) (.info driver applicationId recorded))
      (hinfo : Info.Fetched applicationId recorded window info) :
      Step S w (w.fetch i (fetchOf driver applicationId recorded info) window)
  | wrote {i : Nat} {q : Question} {a : q.Answer} {slot : Slot}
      (hasks : (S.work i).Asks (w.said i) q) (hwrite : w.slot.Writes S.record q a slot) :
      Step S w (w.write i q a slot)

/-- Any number of exchanges. -/
def Run (S : Setup) : World → World → Prop := Relation.ReflTransGen S.Step

/-- The world before any exchange. -/
def start (application : Option Application) : World where
  slot := {
    stored := application.map Application.toJson
    given := (application.bind (·.metadata.resourceVersion)).toList }
  said _ := []
  window _ := none
  writes := []

/-! ## A driver and an executor -/

/-- A pod of the application in a role, after which it is named. -/
def pairPod (role : String) : Pod where
  metadata := { Object.Metadata.empty with
    name := some role
    ns := some "spark"
    uid := some (role ++ "-uid")
    labels := some (.ofList [(Pod.applicationLabel, "app"), (Pod.roleLabel, role)])
    finalizers := some [Pod.trackingFinalizer] }
  status := none

/-- Reconciles of a driver and of an executor over the record of their application. -/
def pair : Setup where
  runningRequeue := ⟨30, by decide, by decide⟩
  pods i := ("spark", if i = 0 then "driver" else "executor")
  record := ("spark", "app")

/-- The first exchange of a reconcile for one of the two pods. -/
def pairRead (role : String) : Exchange Tracking :=
  ⟨.getPod "spark" role, (.ok (some (pairPod role)) : Except Kube.Error (Option Pod))⟩

end Setup

end SparkLedger.Tracker

import SparkLedger.Application.Basic
import SparkLedger.Info.Basic

/-!
# What a reconcile asks

The questions of a reconcile to its environment: reading a pod or a record, changing either by a
merge patch, creating a record, and fetching the info on an application.
-/

namespace SparkLedger.Tracker

/-- A question of a reconcile. -/
inductive Question where
  | getPod (ns name : String)
  | patchPod (ns name : String) (patch : Json)
  | getApplication (ns name : String)
  | createApplication (ns : String) (application : Application)
  | patchApplication (ns name : String) (patch : Json)
  /-- The info on the application of a driver, given the ledger recorded for it. -/
  | info (driver : Pod) (applicationId : String) (recorded : Option Ledger)

/-- The answer to a question. An object that is asked for by name may be absent; a write answers
the object as it is stored. -/
def Question.Answer : Question → Type
  | .getPod .. => Except Kube.Error (Option Pod)
  | .patchPod .. => Except Kube.Error Pod
  | .getApplication .. => Except Kube.Error (Option Application)
  | .createApplication .. => Except Kube.Error Application
  | .patchApplication .. => Except Kube.Error Application
  | .info .. => Except Info.Error Info

/-- Whether a question changes an object. -/
def Question.isWrite : Question → Bool
  | .patchPod .. => true
  | .createApplication .. => true
  | .patchApplication .. => true
  | _ => false

/-- What a reconcile asks. -/
def Tracking : Interface where
  Question := Question
  Answer := Question.Answer

end SparkLedger.Tracker

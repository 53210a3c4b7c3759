import SparkLedger.Kube.Client
import SparkLedger.Rest.Transport
import SparkLedger.Tracker.Reconcile

/-!
# The agent

Answers what a reconcile asks over the wire: objects from the API server, and the info on an
application from whoever can describe it.
-/

namespace SparkLedger

namespace Info

/-- Finds who can describe the application of a driver, over the wire. -/
def locateOnWire (settings : Settings) (driver : Pod) : Dialogue Wire (Except Error Source) :=
  Dialogue.via (I := Listing) (fun (ns, selector) => Kube.services ns selector)
    (locate settings driver)

/-- Fetches the info on an application, over the wire. -/
def fetchOnWire (settings : Settings) (source : Source) (applicationId : String)
    (recorded : Option Ledger) : Dialogue Wire (Except Error Info) :=
  Dialogue.via (I := Calling)
    (fun (client, call) => (client.call applicationId call).via (Rest.fetch settings.apiTimeout))
    (fetch source applicationId recorded).run

/-- The info on the application of a driver, over the wire. -/
def onWire (settings : Settings) (driver : Pod) (applicationId : String)
    (recorded : Option Ledger) : Dialogue Wire (Except Error Info) := do
  match ← locateOnWire settings driver with
  | .error error => return .error error
  | .ok source => fetchOnWire settings source applicationId recorded

end Info

namespace Tracker

/-- Answers a question of a reconcile over the wire. -/
def answer (settings : Settings) : (q : Question) → Dialogue Wire q.Answer
  | .getPod ns name => Kube.get? Pod ns name
  | .patchPod ns name patch => Kube.patch Pod fieldManager ns name patch
  | .getApplication ns name => Kube.get? Application ns name
  | .createApplication ns application => Kube.create ns application
  | .patchApplication ns name patch => Kube.patch Application fieldManager ns name patch
  | .info driver applicationId recorded => Info.onWire settings driver applicationId recorded

/-- A part of a reconcile, over the wire. -/
def onWire {α : Type} (settings : Settings) (d : Dialogue Tracking α) : Dialogue Wire α :=
  d.via (answer settings)

end Tracker

end SparkLedger

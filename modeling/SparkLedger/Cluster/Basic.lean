import SparkLedger.Json.MergePatch
import SparkLedger.Json.Printer
import SparkLedger.Kube.Request
import SparkLedger.Kube.Reply

/-!
# A cluster

The state of an API server that answers by a script: the objects it stores, the services it
lists, the bodies behind its proxy, and the rules that stand before its own answers. Every store
of an object gives it a new version.
-/

namespace SparkLedger

namespace Cluster

/-- What comes back from a request. -/
inductive Response where
  | reply (r : Kube.Reply)
  /-- Nothing ever. -/
  | silence

/-- A reply of text. -/
def Response.text (status : Nat) (text : String) : Response := .reply ⟨status, text.toUTF8⟩

/-- A reply of JSON. -/
def Response.json (status : Nat) (j : Json) : Response := .text status j.text

/-- What a rule does with a request. -/
inductive Effect where
  /-- Answers it. -/
  | respond (r : Response)
  /-- Changes an object by a merge patch, or removes it, before the request goes on. -/
  | meddle (path : String) (patch : Option Json)

/-- A rule for requests. -/
structure Rule where
  /-- The method that a request has to have, if the rule is for one. -/
  method : Option String
  /-- What has to be part of a request's line. -/
  part : String
  /-- How many requests the rule is for. -/
  times : Nat
  effect : Effect

end Cluster

open Cluster in
/-- A cluster. -/
structure Cluster where
  /-- The objects by their paths. -/
  objects : SortedMap String Json
  /-- The services by the paths of their collections. -/
  services : SortedMap String (List Json)
  /-- What the proxy answers, by path. -/
  bodies : SortedMap String Response
  rules : List Rule
  /-- The version given last. -/
  version : Nat

namespace Cluster

/-- A cluster with nothing in it. -/
def empty : Cluster := ⟨.empty, .empty, .empty, [], 0⟩

/-! ## Objects -/

/-- An object with a text in its metadata. -/
def withMetadata (key value : String) : Json → Json
  | .obj ms =>
    let metadata := ((Assoc.find? "metadata" ms).getD .null).members
    .obj (Assoc.insert "metadata" (.obj (Assoc.insert key (.str value) metadata)) ms)
  | j => j

/-- The object as it is stored under a version. -/
def versioned (version : Nat) : Json → Json := withMetadata "resourceVersion" (toString version)

/-- Stores an object. -/
def store (c : Cluster) (path : String) (object : Json) : Cluster :=
  { c with
    objects := c.objects.insert path (versioned (c.version + 1) object)
    version := c.version + 1 }

/-- Changes an object, if it is there. -/
def merge (c : Cluster) (path : String) (patch : Json) : Cluster :=
  match c.objects.find? path with
  | some object => c.store path (patch.merge object)
  | none => c

/-- Removes an object. -/
def remove (c : Cluster) (path : String) : Cluster :=
  { c with objects := c.objects.erase path }

/-- Changes an object by a merge patch, or removes it. -/
def meddle (c : Cluster) (path : String) : Option Json → Cluster
  | some patch => c.merge path patch
  | none => c.remove path

/-! ## Services and bodies -/

/-- The path of the services of a namespace. -/
def servicesPath (ns : String) : String := "/api/v1/namespaces/" ++ ns ++ "/services"

/-- Lists other services in a namespace. -/
def setServices (c : Cluster) (ns : String) (items : List Json) : Cluster :=
  { c with services := c.services.insert (servicesPath ns) items }

/-- Puts bodies in the place of all those whose paths begin alike. -/
def setBodies (c : Cluster) (start : String) (bodies : List (String × Response)) : Cluster :=
  let others := c.bodies.toList.filter fun b => !start.toList.isPrefixOf b.1.toList
  { c with bodies := .ofList (others ++ bodies.map fun b => (start ++ b.1, b.2)) }

/-- Adds a rule behind the others. -/
def addRule (c : Cluster) (r : Rule) : Cluster := { c with rules := c.rules ++ [r] }

end Cluster

end SparkLedger

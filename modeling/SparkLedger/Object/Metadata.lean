import SparkLedger.Json.Record
import SparkLedger.Text.Timestamp

/-!
# Metadata of cluster objects

What every object of the cluster carries: its identity, its labels, who owns it, who holds it
back from deletion, and the version that a conditional write refers to. Everything may be
absent; an absent list and an empty one are different.
-/

namespace SparkLedger.Object

/-- A map of labels. -/
abbrev Labels := SortedMap String String

/-- A reference to the owner of an object. -/
@[ext]
structure OwnerReference where
  apiVersion : String
  kind : String
  name : String
  uid : String
  controller : Option Bool
  blockOwnerDeletion : Option Bool
  deriving DecidableEq

namespace OwnerReference

/-- The record of a reference. -/
def toJson (r : OwnerReference) : Json :=
  .ofPresent [("apiVersion", some (.str r.apiVersion)),
    ("blockOwnerDeletion", r.blockOwnerDeletion.map .bool),
    ("controller", r.controller.map .bool), ("kind", some (.str r.kind)),
    ("name", some (.str r.name)), ("uid", some (.str r.uid))]

/-- Reads a reference. -/
def ofJson? (j : Json) : Option OwnerReference := do
  let ms ← j.asMembers?
  return {
    apiVersion := ← Json.lastMemberD? "apiVersion" Json.asString? "" ms
    kind := ← Json.lastMemberD? "kind" Json.asString? "" ms
    name := ← Json.lastMemberD? "name" Json.asString? "" ms
    uid := ← Json.lastMemberD? "uid" Json.asString? "" ms
    controller := ← Json.lastMember? "controller" Json.asBool? ms
    blockOwnerDeletion := ← Json.lastMember? "blockOwnerDeletion" Json.asBool? ms }

end OwnerReference

/-- The metadata of an object. -/
@[ext]
structure Metadata where
  name : Option String
  ns : Option String
  uid : Option String
  labels : Option Labels
  /-- Who holds the object back from deletion. -/
  finalizers : Option (List String)
  ownerReferences : Option (List OwnerReference)
  /-- When deletion was requested. -/
  deletionTimestamp : Option Timestamp
  /-- The version of the object that was read. -/
  resourceVersion : Option String
  deriving DecidableEq

namespace Metadata

/-- Metadata that says nothing. -/
def empty : Metadata := ⟨none, none, none, none, none, none, none, none⟩

instance : Inhabited Metadata := ⟨empty⟩

/-- Whether deletion of the object was requested. -/
def isDeleting (m : Metadata) : Bool := m.deletionTimestamp.isSome

/-- The value of a label. -/
def label? (m : Metadata) (key : String) : Option String :=
  m.labels.bind fun labels => labels.find? key

/-- Namespace and name, if the object has both. -/
def identity? (m : Metadata) : Option (String × String) :=
  match m.ns, m.name with
  | some ns, some name => some (ns, name)
  | _, _ => none

theorem identity?_eq_some_iff {m : Metadata} {ns name : String} :
    m.identity? = some (ns, name) ↔ m.ns = some ns ∧ m.name = some name := by
  unfold identity?
  cases m.ns <;> cases m.name <;> simp

/-- The record of metadata. -/
def toJson (m : Metadata) : Json :=
  .ofPresent [("deletionTimestamp", m.deletionTimestamp.map fun t => .str t.text),
    ("finalizers", m.finalizers.map fun fs => .arr (fs.map .str)),
    ("labels", m.labels.map (.ofMap .str)), ("name", m.name.map .str),
    ("namespace", m.ns.map .str),
    ("ownerReferences", m.ownerReferences.map fun rs => .arr (rs.map OwnerReference.toJson)),
    ("resourceVersion", m.resourceVersion.map .str), ("uid", m.uid.map .str)]

/-- Reads a time. -/
def timestamp? (j : Json) : Option Timestamp := j.asString? >>= Timestamp.ofString?

/-- Reads metadata. -/
def ofJson? (j : Json) : Option Metadata := do
  let ms ← j.asMembers?
  return {
    name := ← Json.lastMember? "name" Json.asString? ms
    ns := ← Json.lastMember? "namespace" Json.asString? ms
    uid := ← Json.lastMember? "uid" Json.asString? ms
    labels := ← Json.lastMember? "labels" (Json.asTextMap? Json.asString?) ms
    finalizers := ← Json.lastMember? "finalizers" (Json.asList? Json.asString?) ms
    ownerReferences := ← Json.lastMember? "ownerReferences" (Json.asList? OwnerReference.ofJson?) ms
    deletionTimestamp := ← Json.lastMember? "deletionTimestamp" timestamp? ms
    resourceVersion := ← Json.lastMember? "resourceVersion" Json.asString? ms }

end Metadata

end SparkLedger.Object

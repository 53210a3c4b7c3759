import SparkLedger.Json.Arrangement
import SparkLedger.Json.MergePatch
import SparkLedger.Json.Printer
import SparkLedger.Object.Metadata

/-!
# Kinds of objects, and conditional patches

A `Resource` is a kind of object that the cluster stores as JSON. `conditionalPatch?` describes a
change to such an object as a merge patch that carries the version it was made from, so that the
server refuses it once anybody else has changed the object.
-/

namespace SparkLedger.Object

/-- A kind of object of the cluster. -/
class Resource (α : Type) where
  /-- The name of the kind. -/
  kind : String
  /-- Where the API server has the objects of a namespace. -/
  collection : String → String
  metadata : α → Metadata
  toJson : α → Json
  /-- The order in which the members of an object are shown. -/
  arrangement : Json.Arrangement
  ofJson? : Json → Option α

variable {α : Type} [Resource α]

/-- Puts a version into the metadata of an object patch, behind what it says itself, unless it
gives the metadata as something else than an object. -/
def conditionOn (version : String) (patch : Json) : Json :=
  match patch with
  | .obj ms =>
    match (Assoc.find? "metadata" ms).getD (.obj []) with
    | .obj metadata =>
      .obj (Assoc.put "metadata" (.obj (Assoc.put "resourceVersion" (.str version) metadata)) ms)
    | _ => patch
  | _ => patch

/-- The merge patch from one value to another, conditional on a version if there is one; none if
there is nothing to change. -/
def patchBetween? (version : Option String) (old new : Json) : Option Json :=
  let patch := Json.diff old new
  if patch.isEmptyPatch then none
  else
    match version with
    | some version => some (conditionOn version patch)
    | none => some patch

/-- The merge patch from one object to another, conditional on the version of the first if it has
one; none if there is nothing to change. -/
def conditionalPatch? (old new : α) : Option Json :=
  patchBetween? (Resource.metadata old).resourceVersion (Resource.toJson old)
    (Resource.toJson new)

/-- The conditional merge patch from one object to another as messages show it. -/
def shownPatch (old new : α) : String :=
  let arranged (a : α) : Json := (Resource.arrangement α).arrange (Resource.toJson a)
  ((patchBetween? (Resource.metadata old).resourceVersion (arranged old)
    (arranged new)).getD (.obj [])).text

end SparkLedger.Object

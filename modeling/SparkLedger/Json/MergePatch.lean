import SparkLedger.Json.Basic

/-!
# Merge patches

`merge` applies a merge patch as RFC 7386 defines it: an object patch sets members, drops those
it gives as null and descends into those it gives as objects; any other patch replaces the value.
`diff` goes the other way: it describes how one value differs from another. Members that are gone
become null, objects are compared member by member, and every other changed value, arrays
included, is given whole. The members that the first value has come first, each group in the
order of the value it is from.
-/

namespace SparkLedger.Json

/-- Members as an object has them; none if the value is no object. -/
def members : Json → List (String × Json)
  | .obj ms => ms
  | _ => []

mutual

/-- The value after a merge patch. -/
def merge (patch stored : Json) : Json :=
  match patch with
  | .obj ms => .obj (mergeMembers ms stored.members)
  | other => other

/-- The members of an object after the members of a merge patch, one after the other. -/
def mergeMembers (patch stored : List (String × Json)) : List (String × Json) :=
  match patch with
  | [] => stored
  | (k, .null) :: rest => mergeMembers rest (Assoc.erase k stored)
  | (k, v) :: rest =>
    mergeMembers rest (Assoc.insert k (merge v ((Assoc.find? k stored).getD .null)) stored)

end

/-- The members of one object that another lacks. -/
def added (old new : List (String × Json)) : List (String × Json) :=
  new.filter fun m => (Assoc.find? m.1 old).isNone

mutual

/-- The merge patch from one value to another. -/
def diff (old new : Json) : Json :=
  match old with
  | .obj ms =>
    match new with
    | .obj ms' => .obj (changed ms ms' ++ added ms ms')
    | other => other
  | _ => new

/-- The patch members for the keys of the first object. -/
def changed (old new : List (String × Json)) : List (String × Json) :=
  match old with
  | [] => []
  | (k, v) :: rest =>
    match Assoc.find? k new with
    | none => (k, .null) :: changed rest new
    | some w => if w.same v then changed rest new else (k, diff v w) :: changed rest new

end

/-- Whether a patch says nothing. -/
def isEmptyPatch : Json → Bool
  | .obj [] => true
  | _ => false

end SparkLedger.Json

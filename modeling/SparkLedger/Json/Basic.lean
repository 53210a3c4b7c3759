import SparkLedger.SortedMap
import SparkLedger.Json.Binary64

/-!
# JSON values

One type for documents and for values. A document keeps its members as they were written, in
order and with repetitions; a value in normal form has ascending, distinct keys everywhere.
`unreadable` stands for a part of a document that is well formed as text but denotes nothing (a
lone surrogate, a number beyond all floats, a nesting beyond the limit): it may be skipped,
and nothing can be read from it. `disguised` marks a member whose key looks like a number but is
written with an escape: under such a key the member can be read, but the key counts as no number.

* `same`: equality of values, where numbers of different kinds differ and floats compare as
  numbers.
* `normal?`: the normal form of a document, if every part of it denotes something.
-/

namespace SparkLedger

/-- A JSON document or value. -/
inductive Json where
  | null
  | bool (b : Bool)
  /-- A number written without fraction and exponent, from `-2^63` up to `2^64 - 1`. -/
  | int (i : Int)
  /-- Any other number. -/
  | float (f : Binary64)
  | str (s : String)
  | arr (items : List Json)
  | obj (members : List (String × Json))
  /-- A part that denotes no value. -/
  | unreadable
  /-- The value of a member whose key does not show as the number that it looks like. -/
  | disguised (part : Json)

namespace Json

instance : Inhabited Json := ⟨.null⟩

/-! ## Equality of values -/

mutual

/-- Equality of values: member by member, floats as numbers, an integer never equals a float. -/
def same : Json → Json → Bool
  | .null, .null => true
  | .bool a, .bool b => a == b
  | .int a, .int b => a == b
  | .float a, .float b => a.same b
  | .str a, .str b => a == b
  | .arr xs, .arr ys => sameItems xs ys
  | .obj xs, .obj ys => sameMembers xs ys
  | .unreadable, .unreadable => true
  | .disguised a, .disguised b => a.same b
  | _, _ => false

/-- Equality of lists of values. -/
def sameItems : List Json → List Json → Bool
  | [], [] => true
  | x :: xs, y :: ys => x.same y && sameItems xs ys
  | _, _ => false

/-- Equality of lists of members. -/
def sameMembers : List (String × Json) → List (String × Json) → Bool
  | [], [] => true
  | (k, x) :: xs, (l, y) :: ys => k == l && x.same y && sameMembers xs ys
  | _, _ => false

end

mutual

@[simp] theorem same_self : (j : Json) → j.same j = true
  | .null => rfl
  | .bool b => by simp [same]
  | .int i => by simp [same]
  | .float f => by simp [same]
  | .str s => by simp [same]
  | .arr xs => by simp [same, sameItems_self xs]
  | .obj ms => by simp [same, sameMembers_self ms]
  | .unreadable => rfl
  | .disguised j => by simp [same, same_self j]

@[simp] theorem sameItems_self : (xs : List Json) → sameItems xs xs = true
  | [] => rfl
  | x :: xs => by simp [sameItems, same_self x, sameItems_self xs]

@[simp] theorem sameMembers_self : (ms : List (String × Json)) → sameMembers ms ms = true
  | [] => rfl
  | (k, x) :: ms => by simp [sameMembers, same_self x, sameMembers_self ms]

end

/-! ## Normal form -/

mutual

/-- The normal form: members in ascending key order, the last of a repeated key counts. None if
a part denotes no value. -/
def normal? : Json → Option Json
  | .arr xs => (normalItems? xs).map .arr
  | .obj ms => (normalMembers? ms).map fun ms => .obj (SortedMap.ofList ms).toList
  | .unreadable => none
  | .disguised j => normal? j
  | j => some j

/-- The normal forms of the items of an array. -/
def normalItems? : List Json → Option (List Json)
  | [] => some []
  | x :: xs => do
    let x ← normal? x
    let xs ← normalItems? xs
    return x :: xs

/-- The members with their values in normal form, in the order given. -/
def normalMembers? : List (String × Json) → Option (List (String × Json))
  | [] => some []
  | (k, x) :: ms => do
    let x ← normal? x
    let ms ← normalMembers? ms
    return (k, x) :: ms

end

/-! ## Parts of a value -/

/-- The value itself, whatever key it is under. -/
def undisguised : Json → Json
  | .disguised j => j
  | j => j

/-- The member with this key, if the value is an object that has one. -/
def member? (j : Json) (key : String) : Option Json :=
  match j with
  | .obj ms => Assoc.find? key ms
  | _ => none

/-- The object of those members that are present. -/
def ofPresent (members : List (String × Option Json)) : Json :=
  .obj (members.filterMap fun (k, v) => v.map (k, ·))

/-- The object of a map from strings. -/
def ofMap {ν : Type} (encode : ν → Json) (m : SortedMap String ν) : Json :=
  .obj (m.toList.map fun (k, v) => (k, encode v))

end Json

end SparkLedger

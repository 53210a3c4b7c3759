import SparkLedger.Json.Basic
import SparkLedger.Text.Decimal

/-!
# The order of members in text

Members of an object have no order that matters, but a text shows them in one. An arrangement
says which: the fields of a record in an order of their own, numbered members by their numbers.
-/

namespace SparkLedger.Json

/-- The order in which the members of a value are shown, and those of its parts. -/
inductive Arrangement where
  /-- The order they have. -/
  | plain
  /-- The order of these fields, for a value that has no others. -/
  | record (fields : List (String × Arrangement))
  /-- Items of one arrangement. -/
  | list (item : Arrangement)
  /-- Parts of one arrangement, whose names are numbers, by ascending number. -/
  | numbered (entry : Arrangement)

namespace Arrangement

/-- The number that a name is. -/
def number (name : String) : Int := (Text.Decimal.ofText? name).getD 0

mutual

/-- The value with its members in order. -/
def arrange : Arrangement → Json → Json
  | .record fields, .obj ms => .obj (arrangeFields fields ms)
  | .list item, .arr xs => .arr (xs.map (arrange item))
  | .numbered entry, .obj ms =>
    .obj ((ms.mergeSort fun a b => number a.1 ≤ number b.1).map fun m => (m.1, arrange entry m.2))
  | _, j => j

/-- The members in the order of the fields. -/
def arrangeFields : List (String × Arrangement) → List (String × Json) → List (String × Json)
  | [], _ => []
  | (name, a) :: rest, ms =>
    match Assoc.find? name ms with
    | some j => (name, arrange a j) :: arrangeFields rest ms
    | none => arrangeFields rest ms

end

/-- Fields whose own members have no arrangement. -/
def ofFields (names : List String) : Arrangement := .record (names.map (·, .plain))

end Arrangement

end SparkLedger.Json

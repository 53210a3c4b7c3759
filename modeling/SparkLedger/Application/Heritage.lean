import SparkLedger.Json.Record

/-!
# How an application was launched
-/

namespace SparkLedger.Application

/-- How an application was launched. -/
inductive Heritage where
  /-- By hand. -/
  | submit
  /-- By the operator, whose own resource owns the driver. -/
  | operator
  /-- By a notebook gateway. -/
  | jupyter
  deriving DecidableEq, Repr

namespace Heritage

/-- The name of a heritage. -/
def name : Heritage → String
  | .submit => "submit"
  | .operator => "operator"
  | .jupyter => "jupyter"

/-- The heritage of a name. -/
def ofName? (s : String) : Option Heritage :=
  if s = "submit" then some .submit
  else if s = "operator" then some .operator
  else if s = "jupyter" then some .jupyter
  else none

@[simp] theorem ofName?_name (h : Heritage) : ofName? h.name = some h := by cases h <;> decide

/-- Whether the driver is left for the application's record to own. -/
def allowsOwnership : Heritage → Bool
  | .operator => false
  | _ => true

/-- Reads a heritage. -/
def ofJson? (j : Json) : Option Heritage := j.asName? ofName?

end Heritage

end SparkLedger.Application

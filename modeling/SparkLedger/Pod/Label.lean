import SparkLedger.Object.Metadata
import SparkLedger.Application.Heritage

/-!
# Labels of Spark pods

The labels that say which application a pod belongs to, in which role, and how the application
was launched.
-/

namespace SparkLedger.Pod

open Object (Labels)
open Application (Heritage)

/-- The label with the id of the application. -/
def applicationLabel : String := "spark-app-selector"

/-- The label with the role of the pod. -/
def roleLabel : String := "spark-role"

/-- What a pod does for its application. -/
inductive Role where
  | driver
  | executor
  deriving DecidableEq, Repr

namespace Role

/-- The role as labels and messages name it. -/
def name : Role → String
  | .driver => "driver"
  | .executor => "executor"

/-- The role of a name. -/
def ofName? (s : String) : Option Role :=
  if s = "driver" then some .driver else if s = "executor" then some .executor else none

@[simp] theorem ofName?_name (r : Role) : ofName? r.name = some r := by cases r <;> decide

end Role

/-- Whether a label has this value. -/
def hasLabel (labels : Labels) (key value : String) : Bool := labels.find? key == some value

/-- How an application was launched, by the labels of its driver: by a notebook gateway, by the
operator, or else by hand if the driver belongs to an application at all. -/
def heritage? (labels : Labels) : Option Heritage :=
  if hasLabel labels "app" "enterprise-gateway" then some .jupyter
  else if hasLabel labels "sparkoperator.k8s.io/launched-by-spark-operator" "true" then
    some .operator
  else if labels.contains applicationLabel then some .submit
  else none

end SparkLedger.Pod

/-!
# Withheld causes

What other programs say about a failure is not part of this program's own output. A message is
cut behind the first announcement of such a text, and the text itself is replaced by a mark.
-/

namespace SparkLedger.Text

/-- What announces a cause worded elsewhere. -/
def announcements : List String := [
  "API server proxy request failed! Reason: ",
  "Kubernetes API request failed! Reason: ",
  "HTTP request failed! Reason: ",
  "Couldn't compute the patch! Reason: ",
  "' response! Reason: ",
  "' namespace! Reason: ",
  "Watcher has failed! "]

/-- The announcement that a text starts with. -/
def announcement? (cs : List Char) : Option (List Char) :=
  (announcements.map String.toList).find? (·.isPrefixOf cs)

/-- The text up to and with its first announcement, then the mark; all of it if it has none. -/
def withholdFrom : List Char → List Char
  | [] => []
  | c :: cs =>
    match announcement? (c :: cs) with
    | some a => a ++ "<cause>".toList
    | none => c :: withholdFrom cs

/-- A message with a cause that was worded elsewhere withheld. -/
def withhold (s : String) : String := String.ofList (withholdFrom s.toList)

end SparkLedger.Text

/-!
# URLs of requests

The part of a URL behind the host, as it is sent. Nothing is escaped here: a text with a
character that a URL cannot have is no URL, and a fragment is cut off.
-/

namespace SparkLedger.Kube

/-- A URL behind its host: the path and, if there is one, the query. -/
structure Url where
  path : String
  query : Option String
  deriving DecidableEq, Repr

namespace Url

/-- Printable ASCII without the blank. -/
def isGraphic (c : Char) : Bool := '!' ≤ c && c ≤ '~'

/-- Characters that a path has. -/
def isPathCharacter (c : Char) : Bool := isGraphic c && c ≠ '<' && c ≠ '>' && c ≠ '\x60'

/-- Characters that a query has. -/
def isQueryCharacter (c : Char) : Bool := isGraphic c && c ≠ '<' && c ≠ '>' && c ≠ '"'

/-- The most bytes that a URL has, its fragment included. -/
def maxBytes : Nat := 65534

/-- Reads a URL. -/
def ofText? (s : String) : Option Url :=
  let sent := s.toList.takeWhile (· ≠ '#')
  let path := sent.takeWhile (· ≠ '?')
  if maxBytes < s.utf8ByteSize || !path.all isPathCharacter then none
  else
    match sent.dropWhile (· ≠ '?') with
    | [] => some ⟨String.ofList path, none⟩
    | _ :: query =>
      if query.all isQueryCharacter then some ⟨String.ofList path, some (String.ofList query)⟩
      else none

/-- The text of a URL. -/
def text (u : Url) : String :=
  match u.query with
  | some query => u.path ++ "?" ++ query
  | none => u.path

end Url

end SparkLedger.Kube

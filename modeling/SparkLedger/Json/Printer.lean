import SparkLedger.Json.Basic
import SparkLedger.Json.Shortest

/-!
# The compact text of a JSON value

No blanks, members in the order they have, and in strings only the escapes JSON demands. A part
that denotes no value is written as `null`.
-/

namespace SparkLedger.Json

/-- A hexadecimal digit. -/
def hexDigit (n : Nat) : Char := "0123456789abcdef".toList.getD n '0'

/-- A character inside a string. -/
def escaped (c : Char) : List Char :=
  if c = '"' then ['\\', '"']
  else if c = '\\' then ['\\', '\\']
  else if c = '\n' then ['\\', 'n']
  else if c = '\r' then ['\\', 'r']
  else if c = '\t' then ['\\', 't']
  else if c = '\x08' then ['\\', 'b']
  else if c = '\x0c' then ['\\', 'f']
  else if c.toNat < 0x20 then
    ['\\', 'u', '0', '0', hexDigit (c.toNat / 16), hexDigit (c.toNat % 16)]
  else [c]

/-- A string in quotes, after the text written so far. -/
def writeString (written : String) (s : String) : String :=
  (s.toList.foldl (fun t c => (escaped c).foldl String.push t) (written.push '"')).push '"'

mutual

/-- A value, after the text written so far. -/
def write (written : String) : Json → String
  | .null => written ++ "null"
  | .bool true => written ++ "true"
  | .bool false => written ++ "false"
  | .int i => written ++ toString i
  | .float f => written ++ f.text .standard
  | .str s => writeString written s
  | .arr [] => written ++ "[]"
  | .arr (x :: xs) => (writeItems (write (written.push '[') x) xs).push ']'
  | .obj [] => written ++ "\x7b\x7d"
  | .obj ((k, x) :: ms) =>
    (writeMembers (write ((writeString (written.push '\x7b') k).push ':') x) ms).push '\x7d'
  | .unreadable => written ++ "null"
  | .disguised j => write written j

/-- The further items of an array. -/
def writeItems (written : String) : List Json → String
  | [] => written
  | x :: xs => writeItems (write (written.push ',') x) xs

/-- The further members of an object. -/
def writeMembers (written : String) : List (String × Json) → String
  | [] => written
  | (k, x) :: ms => writeMembers (write ((writeString (written.push ',') k).push ':') x) ms

end

/-- The compact text of a value. -/
def text (j : Json) : String := write "" j

end SparkLedger.Json

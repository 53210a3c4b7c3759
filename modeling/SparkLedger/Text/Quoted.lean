import SparkLedger.Text.Unprinted

/-!
# Quoted text

Text as it is shown inside messages: in double quotes, with a backslash before quotes and
backslashes, short escapes for the usual controls, and code points for characters without a
visible shape. Text that comes as bytes shows every byte that belongs to no character by its two
hexadecimal digits.
-/

namespace SparkLedger.Text

private def codePointEscape (c : Char) : List Char :=
  ['\\', 'u', '\x7b'] ++ Nat.toDigits 16 c.toNat ++ ['\x7d']

/-- A character of quoted text. -/
def escaped (c : Char) : List Char :=
  if c = '"' then ['\\', '"']
  else if c = '\\' then ['\\', '\\']
  else if c = '\n' then ['\\', 'n']
  else if c = '\r' then ['\\', 'r']
  else if c = '\t' then ['\\', 't']
  else if c = '\x00' then ['\\', '0']
  else if c.toNat < 0x20 then codePointEscape c
  else if c.toNat < 0x7f then [c]
  else if isUnprinted c.toNat then codePointEscape c
  else [c]

/-- Text in quotes. -/
def quoted (s : String) : String :=
  String.ofList ('"' :: s.toList.flatMap escaped ++ ['"'])

/-- A list of texts, each in quotes. -/
def quotedList (xs : List String) : String :=
  "[" ++ ", ".intercalate (xs.map quoted) ++ "]"

/-! ## Text given as bytes -/

/-- How many bytes the character at the front takes, by its first byte. -/
def characterLength (b : UInt8) : Nat :=
  if b < 0x80 then 1 else if b < 0xe0 then 2 else if b < 0xf0 then 3 else 4

/-- The character at the front of the bytes, if they start with one. -/
def character? (bytes : List UInt8) : Option Char :=
  match bytes with
  | [] => none
  | b :: _ =>
    match String.fromUTF8? (bytes.take (characterLength b)).toByteArray with
    | some s => s.toList.head?
    | none => none

private def upperHex (b : UInt8) : List Char :=
  let digit (n : Nat) : Char := "0123456789ABCDEF".toList.getD n '0'
  ['\\', 'x', digit (b.toNat / 16), digit (b.toNat % 16)]

/-- The characters of bytes, and the bytes that belong to none, as quoted text shows them. The
first argument is the number of bytes of the last character that are still to pass. -/
def escapedBytes : Nat → List UInt8 → List Char
  | _, [] => []
  | skip + 1, _ :: rest => escapedBytes skip rest
  | 0, b :: rest =>
    match character? (b :: rest) with
    | some c => escaped c ++ escapedBytes (characterLength b - 1) rest
    | none => upperHex b ++ escapedBytes 0 rest

/-- Bytes as text in quotes. -/
def quotedBytes (bytes : ByteArray) : String :=
  String.ofList ('"' :: escapedBytes 0 bytes.toList ++ ['"'])

end SparkLedger.Text

import SparkLedger.Json.Basic

/-!
# Reading JSON text

`Json.ofBytes?` reads a whole text: one value with blanks around it. Everything that is skipped
is still checked as text (brackets, escapes, digits, no bare control characters), but only what
denotes something becomes a value: a string with bytes that are not UTF-8 or with half of a
surrogate pair, a number beyond all floats, and whatever lies more than 127 arrays and objects
deep come out as `unreadable`. An object one of whose keys is such a string is `unreadable` too.
A key that starts as numbers do, but is written with an escape, makes its member `disguised`.

A number that is no integer of 64 bits is read through `Binary64.scaled?`: of its digits those count
that fit in 64 bits together, and a power of ten brings them to their place.

The functions take fuel; two units per byte suffice, because every second call consumes a byte.
-/

namespace SparkLedger.Json.Reader

/-- What is left of the text. -/
abbrev Input := List UInt8

/-- Drops blanks. -/
def skipBlanks : Input → Input
  | [] => []
  | b :: rest => if b = 0x20 ∨ b = 0x09 ∨ b = 0x0a ∨ b = 0x0d then skipBlanks rest else b :: rest

/-- Drops a fixed word. -/
def expect : List UInt8 → Input → Option Input
  | [], input => some input
  | w :: word, b :: input => if w = b then expect word input else none
  | _ :: _, [] => none

/-! ## Numbers -/

/-- The value of a decimal digit. -/
def digit? (b : UInt8) : Option Nat :=
  if 0x30 ≤ b ∧ b ≤ 0x39 then some (b.toNat - 0x30) else none

/-- The digits at the front. -/
def digits : Input → List Nat × Input
  | [] => ([], [])
  | b :: rest =>
    match digit? b with
    | some d =>
      let (ds, rest) := digits rest
      (d :: ds, rest)
    | none => ([], b :: rest)

/-- At least one digit. -/
def someDigits (input : Input) : Option (List Nat × Input) :=
  match digits input with
  | ([], _) => none
  | found => some found

/-- The number that digits denote. -/
def ofDigits (ds : List Nat) : Nat := ds.foldl (fun n d => n * 10 + d) 0

/-- A number as written. -/
structure Numeral where
  negative : Bool
  /-- The digits before the point. -/
  whole : List Nat
  /-- The digits behind the point, if there is one. -/
  fraction : Option (List Nat)
  /-- The written exponent, if there is one. -/
  exponent : Option Int

/-- Reads digits onto a number as long as it fits in 64 bits; the digits left over come with it. -/
def absorb : Nat → List Nat → Nat × List Nat
  | n, [] => (n, [])
  | n, d :: ds => if n * 10 + d < 0x10000000000000000 then absorb (n * 10 + d) ds else (n, d :: ds)

namespace Numeral

/-- The digits that count as one number, and the power of ten that they are multiples of. Digits
left over before the point raise it, digits read behind the point lower it. -/
def scientific (n : Numeral) : Nat × Int :=
  let fraction := n.fraction.getD []
  let (significand, surplus) := absorb 0 n.whole
  let (significand, rest) := absorb significand fraction
  (significand, n.exponent.getD 0 + surplus.length - (fraction.length - rest.length : Nat))

/-- The integer that the digits before the point denote. -/
def integer (n : Numeral) : Int := if n.negative then -(ofDigits n.whole) else ofDigits n.whole

/-- Whether a numeral stands for an integer: neither a point nor an exponent, a value of 64 bits,
and no sign in front of zero. -/
def isInteger (n : Numeral) : Bool :=
  n.fraction.isNone && n.exponent.isNone && decide (-9223372036854775808 ≤ n.integer) &&
    decide (n.integer < 18446744073709551616) && !(n.negative && n.integer == 0)

/-- The value of a numeral. -/
def value (n : Numeral) : Json :=
  if n.isInteger then .int n.integer
  else
    match Binary64.scaled? n.negative n.scientific.1 n.scientific.2 with
    | some f => .float f
    | none => .unreadable

end Numeral

/-- The digits before the point: a zero alone, or digits that do not start with one. -/
def wholeDigits (input : Input) : Option (List Nat × Input) := do
  match ← someDigits input with
  | (0 :: _ :: _, _) => none
  | found => some found

/-- The digits behind the point, if there is one. -/
def fractionDigits (input : Input) : Option (Option (List Nat) × Input) :=
  match input with
  | 0x2e :: rest => (someDigits rest).map fun (ds, rest) => (some ds, rest)
  | _ => some (none, input)

/-- The digits of an exponent after its mark and sign. -/
def exponentDigits (negative : Bool) (input : Input) : Option (Option Int × Input) :=
  (someDigits input).map fun (ds, rest) =>
    (some (if negative then -(ofDigits ds) else ofDigits ds), rest)

/-- The exponent, if there is one. -/
def exponent (input : Input) : Option (Option Int × Input) :=
  match input with
  | b :: rest =>
    if b = 0x65 ∨ b = 0x45 then
      match rest with
      | 0x2d :: rest => exponentDigits true rest
      | 0x2b :: rest => exponentDigits false rest
      | _ => exponentDigits false rest
    else some (none, input)
  | [] => some (none, input)

/-- A number. -/
def number (input : Input) : Option (Json × Input) := do
  let (negative, input) := match input with
    | 0x2d :: rest => (true, rest)
    | _ => (false, input)
  let (whole, input) ← wholeDigits input
  let (fraction, input) ← fractionDigits input
  let (exponent, input) ← exponent input
  return ((Numeral.mk negative whole fraction exponent).value, input)

/-! ## Strings -/

/-- The value of a hexadecimal digit. -/
def hexDigit? (b : UInt8) : Option Nat :=
  if 0x30 ≤ b ∧ b ≤ 0x39 then some (b.toNat - 0x30)
  else if 0x41 ≤ b ∧ b ≤ 0x46 then some (b.toNat - 0x37)
  else if 0x61 ≤ b ∧ b ≤ 0x66 then some (b.toNat - 0x57)
  else none

/-- The unit that four hexadecimal digits denote. -/
def unit? (a b c d : UInt8) : Option Nat := do
  return (((← hexDigit? a) * 16 + (← hexDigit? b)) * 16 + (← hexDigit? c)) * 16 + (← hexDigit? d)

/-- The byte that a short escape denotes. -/
def shortEscape? (b : UInt8) : Option UInt8 :=
  if b = 0x22 ∨ b = 0x5c ∨ b = 0x2f then some b
  else if b = 0x62 then some 0x08
  else if b = 0x66 then some 0x0c
  else if b = 0x6e then some 0x0a
  else if b = 0x72 then some 0x0d
  else if b = 0x74 then some 0x09
  else none

/-- The character of two surrogates. -/
def pair (high low : Nat) : Char :=
  Char.ofNat (0x10000 + (high - 0xd800) * 0x400 + (low - 0xdc00))

/-- Whether a unit is half of a surrogate pair. -/
def isSurrogate (u : Nat) : Bool := 0xd800 ≤ u ∧ u < 0xe000

/-- Reads a string after its opening quote. The bytes read so far come with whether they still
can denote a string. A high half takes its low half with it; any other half denotes nothing. -/
def string (bytes : ByteArray) (sound : Bool) : Input → Option (Option String × Input)
  | [] => none
  | 0x22 :: rest => some (if sound then String.fromUTF8? bytes else none, rest)
  | 0x5c :: 0x75 :: a :: b :: c :: d :: 0x5c :: 0x75 :: e :: f :: g :: h :: rest =>
    match unit? a b c d with
    | none => none
    | some u =>
      if isSurrogate u then
        match unit? e f g h with
        | some l =>
          if u < 0xdc00 ∧ 0xdc00 ≤ l ∧ l < 0xe000 then
            string (bytes ++ (pair u l).toString.toUTF8) sound rest
          else string bytes false (0x5c :: 0x75 :: e :: f :: g :: h :: rest)
        | none => none
      else string (bytes ++ (Char.ofNat u).toString.toUTF8) sound
        (0x5c :: 0x75 :: e :: f :: g :: h :: rest)
  | 0x5c :: 0x75 :: a :: b :: c :: d :: rest =>
    match unit? a b c d with
    | none => none
    | some u =>
      if isSurrogate u then string bytes false rest
      else string (bytes ++ (Char.ofNat u).toString.toUTF8) sound rest
  | 0x5c :: e :: rest =>
    match shortEscape? e with
    | some b => string (bytes.push b) sound rest
    | none => none
  | b :: rest => if b < 0x20 ∨ b = 0x5c then none else string (bytes.push b) sound rest

/-! ## Values -/

/-- The deepest nesting of arrays and objects that denotes something. -/
def maxDepth : Nat := 127

/-- A container at a depth, or what stands for it beyond the limit. -/
def atDepth (depth : Nat) (j : Json) : Json := if depth < maxDepth then j else .unreadable

/-- Whether a key starts as numbers do. -/
def startsAsNumber (key : String) : Bool :=
  match key.toList with
  | c :: _ => c.isDigit || c == '-'
  | [] => false

/-- The value of a member whose key is at the front of the text behind its opening quote. -/
def underKey (key : Option String) (text : Input) (x : Json) : Json :=
  if key.any fun k => startsAsNumber k && !k.toUTF8.toList.isPrefixOf text then .disguised x else x

/-- The object of the members read, whose keys have to denote strings. -/
def object (members : List (Option String × Json)) : Json :=
  match members.mapM fun (k, v) => k.map (·, v) with
  | some ms => .obj ms
  | none => .unreadable

mutual

/-- A value inside `depth` arrays and objects, after optional blanks. -/
def value : Nat → Nat → Input → Option (Json × Input)
  | 0, _, _ => none
  | fuel + 1, depth, input =>
    match skipBlanks input with
    | 0x7b :: rest =>
      match skipBlanks rest with
      | 0x7d :: rest => some (atDepth depth (.obj []), rest)
      | rest => (members fuel (depth + 1) [] rest).map fun (ms, rest) =>
          (atDepth depth (object ms.reverse), rest)
    | 0x5b :: rest =>
      match skipBlanks rest with
      | 0x5d :: rest => some (atDepth depth (.arr []), rest)
      | rest => (items fuel (depth + 1) [] rest).map fun (xs, rest) =>
          (atDepth depth (.arr xs.reverse), rest)
    | 0x22 :: rest =>
      (string .empty true rest).map fun (s, rest) => (s.elim .unreadable .str, rest)
    | 0x74 :: rest => (expect [0x72, 0x75, 0x65] rest).map (.bool true, ·)
    | 0x66 :: rest => (expect [0x61, 0x6c, 0x73, 0x65] rest).map (.bool false, ·)
    | 0x6e :: rest => (expect [0x75, 0x6c, 0x6c] rest).map (.null, ·)
    | rest => number rest

/-- The items of an array up to its end, onto those read, the last one first. -/
def items : Nat → Nat → List Json → Input → Option (List Json × Input)
  | 0, _, _, _ => none
  | fuel + 1, depth, done, input =>
    match value fuel depth input with
    | none => none
    | some (x, rest) =>
      match skipBlanks rest with
      | 0x2c :: rest => items fuel depth (x :: done) rest
      | 0x5d :: rest => some (x :: done, rest)
      | _ => none

/-- The members of an object up to its end, onto those read, the last one first. -/
def members : Nat → Nat → List (Option String × Json) → Input →
    Option (List (Option String × Json) × Input)
  | 0, _, _, _ => none
  | fuel + 1, depth, done, input =>
    match skipBlanks input with
    | 0x22 :: text =>
      match string .empty true text with
      | none => none
      | some (key, rest) =>
        match skipBlanks rest with
        | 0x3a :: rest =>
          match value fuel depth rest with
          | none => none
          | some (x, rest) =>
            match skipBlanks rest with
            | 0x2c :: rest => members fuel depth ((key, underKey key text x) :: done) rest
            | 0x7d :: rest => some ((key, underKey key text x) :: done, rest)
            | _ => none
        | _ => none
    | _ => none

end

end Reader

open Reader in
/-- The document that a whole text denotes. -/
def ofBytes? (bytes : ByteArray) : Option Json :=
  let input := bytes.toList
  match value (2 * input.length + 2) 0 input with
  | some (j, rest) => if (skipBlanks rest).isEmpty then some j else none
  | none => none

/-- The value that a whole text denotes, in normal form. -/
def valueOfBytes? (bytes : ByteArray) : Option Json := ofBytes? bytes >>= normal?

end SparkLedger.Json

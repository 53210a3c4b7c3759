import SparkLedger.Text.Blank
import SparkLedger.Text.Calendar

/-!
# Timestamps

A `Timestamp` is a time in UTC to the second, kept as its canonical text
`YYYY-MM-DDThh:mm:ssZ`. A leap second is the second 60 of its minute. Years outside of four
digits have a sign.

Texts of RFC 3339 are accepted with any offset and any fraction of a second, which is dropped.
They may be written loosely: blanks before every part, fewer digits, a signed year of any length,
`UTC` for the offset, and offsets without a colon.

* `Timestamp.ofString?_text`: a timestamp reads back from its text.
-/

namespace SparkLedger

/-- A time in UTC to the second. -/
structure Moment where
  /-- The seconds since 1970-01-01T00:00:00Z, leap seconds not counted. -/
  seconds : Int
  /-- Whether it is the leap second after this second. -/
  leap : Bool
  deriving DecidableEq

namespace Moment

/-! ## Reading -/

/-- Drops blanks. -/
def skipBlanks (cs : List Char) : List Char := cs.dropWhile Text.isBlank

/-- The number that the digits at the front denote, so many at most and one at least. -/
def number? (most : Nat) (cs : List Char) : Option (Nat × List Char) :=
  match (cs.take most).takeWhile Char.isDigit with
  | [] => none
  | ds => some (Nat.ofDigitChars 10 ds 0, cs.drop ds.length)

/-- A part of a date or a time: one digit or two. -/
def part? (cs : List Char) : Option (Nat × List Char) := number? 2 (skipBlanks cs)

/-- Drops a fixed character. -/
def mark? (c : Char) (cs : List Char) : Option (List Char) :=
  match skipBlanks cs with
  | d :: rest => if c = d then some rest else none
  | [] => none

/-- A year: up to four digits, or any number of them after a sign. -/
def year? (cs : List Char) : Option (Int × List Char) :=
  match skipBlanks cs with
  | '-' :: rest => (number? rest.length rest).map fun (n, rest) => (-n, rest)
  | '+' :: rest => (number? rest.length rest).map fun (n, rest) => (n, rest)
  | cs => (number? 4 cs).map fun (n, rest) => (n, rest)

/-- Drops the mark between a date and a time. -/
def between? : List Char → Option (List Char)
  | c :: rest => if c = 'T' ∨ c = 't' ∨ c = ' ' then some rest else none
  | [] => none

/-- Drops a fraction of a second. -/
def fraction? : List Char → Option (List Char)
  | '.' :: rest => (number? rest.length rest).map (·.2)
  | cs => some cs

/-- Exactly two digits. -/
def twoDigits? : List Char → Option (Nat × List Char)
  | c :: d :: rest => if c.isDigit && d.isDigit then number? 2 (c :: d :: rest) else none
  | _ => none

/-- The hours and minutes of an offset, in seconds. -/
def distance? (cs : List Char) : Option (Nat × List Char) := do
  let (hours, cs) ← twoDigits? cs
  let (minutes, cs) ← twoDigits? (cs.dropWhile fun c => c = ':' || Text.isBlank c)
  if hours ≤ 23 ∧ minutes ≤ 59 then some (hours * 3600 + minutes * 60, cs) else none

/-- An offset from UTC in seconds. -/
def offset? (cs : List Char) : Option (Int × List Char) :=
  if (cs.take 3).map Char.toUpper = ['U', 'T', 'C'] then some (0, cs.drop 3)
  else
    match cs with
    | c :: rest =>
      if c = 'Z' ∨ c = 'z' then some (0, rest)
      else if c = '+' then (distance? rest).map fun (n, rest) => (n, rest)
      else if c = '-' ∨ c = '\u2212' then (distance? rest).map fun (n, rest) => (-n, rest)
      else none
    | [] => none

/-- The days that a timestamp can have: those of the years from -262143 to 262142. -/
def isDay (days : Int) : Bool :=
  Calendar.daysFromDate (-262143) 1 1 ≤ days && days ≤ Calendar.daysFromDate 262142 12 31

/-- The time that a text denotes. -/
def ofChars? (cs : List Char) : Option Moment := do
  let (year, cs) ← year? cs
  let cs ← mark? '-' cs
  let (month, cs) ← part? cs
  let cs ← mark? '-' cs
  let (day, cs) ← part? cs
  let cs ← between? cs
  let (hour, cs) ← part? cs
  let cs ← mark? ':' cs
  let (minute, cs) ← part? cs
  let cs ← mark? ':' cs
  let (second, cs) ← part? cs
  let cs ← fraction? cs
  let (offset, cs) ← offset? (skipBlanks cs)
  let days := Calendar.daysFromDate year month day
  let m : Moment :=
    ⟨days * 86400 + hour * 3600 + minute * 60 + min second 59 - offset, second = 60⟩
  if Calendar.isDate year month day ∧ hour ≤ 23 ∧ minute ≤ 59 ∧ second ≤ 60 ∧
      (skipBlanks cs).isEmpty ∧ isDay days ∧ isDay (m.seconds.fdiv 86400) then some m
  else none

/-! ## Writing -/

/-- A number with leading zeros. -/
def padded (count n : Nat) : String :=
  let ds := Nat.toDigits 10 n
  String.ofList (List.replicate (count - ds.length) '0' ++ ds)

/-- A year: four digits, with a sign if it is outside of them. -/
def yearText (year : Int) : String :=
  let sign := if year < 0 then "-" else if 9999 < year then "+" else ""
  sign ++ padded 4 year.natAbs

/-- The canonical text. -/
def text (m : Moment) : String :=
  let (year, month, day) := Calendar.dateFromDays (m.seconds.fdiv 86400)
  let s := (m.seconds.fmod 86400).toNat
  let second := s % 60 + if m.leap then 1 else 0
  yearText year ++ "-" ++ padded 2 month.toNat ++ "-" ++ padded 2 day.toNat ++ "T" ++
    padded 2 (s / 3600) ++ ":" ++ padded 2 (s / 60 % 60) ++ ":" ++ padded 2 second ++ "Z"

/-- The canonical text of the time that a text denotes. -/
def canonical? (s : String) : Option String := (ofChars? s.toList).map text

end Moment

/-- A time in UTC to the second, by its canonical text. -/
@[ext]
structure Timestamp where
  /-- The text `YYYY-MM-DDThh:mm:ssZ`. -/
  text : String
  canonical : Moment.canonical? text = some text
  deriving DecidableEq

namespace Timestamp

/-- The time that a text denotes. -/
def ofString? (s : String) : Option Timestamp :=
  match Moment.canonical? s with
  | none => none
  | some t => if h : Moment.canonical? t = some t then some ⟨t, h⟩ else none

@[simp] theorem ofString?_text (t : Timestamp) : ofString? t.text = some t := by
  obtain ⟨text, h⟩ := t
  simp [ofString?, h]

end Timestamp

end SparkLedger

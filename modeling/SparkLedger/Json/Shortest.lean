import SparkLedger.Json.Binary64

/-!
# The shortest decimal of a binary number

`Binary64.shortest` finds the fewest digits that tell a number from all others: for 1, 2, … 17
digits it tests the two neighbours of the value on that decimal grid for being nearest to this
number. Of two that are it takes the nearer, and of two equally near ones the even one.
`Binary64.text` lays the digits out: positional while the point is near, with an exponent
otherwise, and always with a mark that tells the text from an integer's.
-/

namespace SparkLedger.Binary64

/-- The exponent of the leading decimal digit of the positive ratio `num / den`, by an estimate
from the binary exponent that is off by one at most. -/
def leadingTen (num den : Nat) : Int :=
  let atLeast (e : Int) : Bool := den * tenTo e.toNat ≤ num * tenTo (-e).toNat
  let guess : Int := (((num.log2 : Int) - den.log2) * 30103).fdiv 100000
  if atLeast (guess + 1) then guess + 1 else if atLeast guess then guess else guess - 1

/-- The digits and the scale of the best decimal with at most `n` digits to which the number is
the nearest one. -/
def hit? (f : Binary64) (n : Nat) : Option (Nat × Int) :=
  let (m, q) := f.parts
  let num := m * twoTo q.toNat
  let den := twoTo (-q).toNat
  let scale := leadingTen num den + 1 - n
  let num' := num * tenTo (-scale).toNat
  let den' := den * tenTo scale.toNat
  let low := num' / den'
  let names (d : Nat) : Bool := decimalBits d scale == f.magnitude
  let below := names low
  let above := names (low + 1)
  let nearer : Bool :=
    2 * (num' % den') < den' || (2 * (num' % den') == den' && low % 2 == 0)
  if below && (!above || nearer) then some (low, scale)
  else if above then some (low + 1, scale)
  else none

/-- Moves the trailing zeros of the digits into the scale; the fuel bounds their number. -/
def stripZeros : Nat → Nat × Int → Nat × Int
  | 0, d => d
  | fuel + 1, (d, scale) => if d % 10 = 0 then stripZeros fuel (d / 10, scale + 1) else (d, scale)

/-- The fewest digits that name the number, with their scale. -/
def shortest (f : Binary64) : Nat × Int :=
  if f.magnitude = 0 then (0, 0)
  else stripZeros 20 (((List.range 17).findSome? fun n => f.hit? (n + 1)).getD (0, 0))

/-- How a number is laid out. -/
structure Layout where
  /-- The most digits before the point. -/
  maxWhole : Int
  /-- The most zeros after the point before the first digit, plus one. -/
  maxLeadingZeros : Int
  /-- The mark of an exponent that is not negative. -/
  plus : List Char

/-- Positional up to sixteen whole digits and down to four zeros behind the point; an exponent
always has a sign. -/
def Layout.standard : Layout := ⟨16, 5, ['+']⟩

private def zeros (n : Int) : List Char := List.replicate n.toNat '0'

/-- The text of a number. -/
def text (f : Binary64) (layout : Layout) : String :=
  let (d, scale) := f.shortest
  let ds := Nat.toDigits 10 d
  let point := ds.length + scale
  let body :=
    if d = 0 then ['0', '.', '0']
    else if 0 ≤ scale ∧ point ≤ layout.maxWhole then ds ++ zeros scale ++ ['.', '0']
    else if 0 < point ∧ point ≤ layout.maxWhole then
      ds.take point.toNat ++ '.' :: ds.drop point.toNat
    else if -layout.maxLeadingZeros < point ∧ point ≤ 0 then
      ['0', '.'] ++ zeros (-point) ++ ds
    else
      let fraction := if ds.length = 1 then [] else '.' :: ds.drop 1
      let sign := if point < 1 then ['-'] else layout.plus
      ds.take 1 ++ fraction ++ 'e' :: sign ++ Nat.toDigits 10 (point - 1).natAbs
  String.ofList (if f.negative then '-' :: body else body)

end SparkLedger.Binary64

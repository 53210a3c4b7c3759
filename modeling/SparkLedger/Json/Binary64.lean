/-!
# Binary floating point numbers of 64 bits

A `Binary64` is kept as its bits. Every operation is one correct rounding of an exact ratio of
integers, ties to the even neighbour, so nothing here depends on the machine's floating point
unit.

* `decimalBits`: the nearest number to a decimal.
* `scaled?`: a significand times a power of ten, in steps that are rounded each; none if the
  magnitude leaves the finite numbers.
* `same`: numeric equality, for which the two zeros are equal.
-/

namespace SparkLedger

/-- A finite binary floating point number, by its bits: sign, exponent, fraction. -/
structure Binary64 where
  /-- The 64 bits, the sign first. -/
  bits : UInt64
  deriving DecidableEq, Inhabited

namespace Binary64

/-- Whether the sign bit is set. -/
def negative (f : Binary64) : Bool := 0x8000000000000000 ≤ f.bits

/-- The bits without the sign. -/
def magnitude (f : Binary64) : Nat := f.bits.toNat % 0x8000000000000000

/-- Numeric equality: equal bits, or two zeros. -/
def same (a b : Binary64) : Bool :=
  a.bits == b.bits || (a.magnitude == 0 && b.magnitude == 0)

@[simp] theorem same_self (a : Binary64) : a.same a = true := by simp [same]

/-- The least bit pattern without a finite value. -/
def infinity : Nat := 0x7ff0000000000000

/-- A power of two. -/
def twoTo (exponent : Nat) : Nat := Nat.pow 2 exponent

/-- A power of ten. -/
def tenTo (exponent : Nat) : Nat := Nat.pow 10 exponent

/-- The quotient to the nearest integer, ties to even. -/
def roundRatio (num den : Nat) : Nat :=
  let q := num / den
  let r := num % den
  if 2 * r < den then q
  else if den < 2 * r then q + 1
  else if q % 2 = 0 then q else q + 1

/-- The bits of the number nearest to the positive ratio `num / den`. The leading bit of the
ratio is at `lead`; the fraction keeps 53 bits from there, fewer below the normal range. A
rounding up to the next power of two carries into the exponent by itself. -/
def ratioBits (num den : Nat) : Nat :=
  let guess : Int := (num.log2 : Int) - den.log2
  let lead := if num * twoTo (-guess).toNat < den * twoTo guess.toNat then guess - 1 else guess
  let unit := max (lead - 52) (-1074)
  let m := roundRatio (num * twoTo (-unit).toNat) (den * twoTo unit.toNat)
  if m < twoTo 52 then m else (unit + 1075).toNat * twoTo 52 + (m - twoTo 52)

/-- The bits nearest to `coefficient * 10 ^ scale`; far outside the range no power of ten is
computed. -/
def decimalBits (coefficient : Nat) (scale : Int) : Nat :=
  if coefficient = 0 then 0
  else if scale > 400 then infinity
  else if scale + (coefficient.log2 + 1) < -400 then 0
  else ratioBits (coefficient * tenTo scale.toNat) (tenTo (-scale).toNat)

/-- The number with this magnitude and sign, if the magnitude is finite. -/
def ofMagnitude? (negative : Bool) (magnitude : Nat) : Option Binary64 :=
  if magnitude < infinity then
    some ⟨UInt64.ofNat (if negative then magnitude + 0x8000000000000000 else magnitude)⟩
  else none

/-- The number nearest to an integer of at most 64 bits. -/
def ofInt (i : Int) : Binary64 :=
  (ofMagnitude? (i < 0) (decimalBits i.natAbs 0)).getD ⟨0⟩

/-- The value without sign as `m * 2 ^ q`. -/
def parts (f : Binary64) : Nat × Int :=
  let e : Nat := f.magnitude / twoTo 52
  let m : Nat := f.magnitude % twoTo 52
  if e = 0 then (m, -1074) else (m + twoTo 52, (e : Int) - 1075)

/-! ## Scaling by powers of ten -/

/-- The largest power of ten that is a finite number, by its exponent. -/
def maxTen : Nat := 308

/-- The power of ten, rounded. -/
def ten (exponent : Nat) : Binary64 := ⟨UInt64.ofNat (decimalBits 1 exponent)⟩

/-- The magnitude as a ratio of integers. -/
def ratio (f : Binary64) : Nat × Nat :=
  let (m, q) := f.parts
  (m * twoTo q.toNat, twoTo (-q).toNat)

/-- The bits nearest to a ratio that may be zero. -/
def nearest (num den : Nat) : Nat := if num = 0 then 0 else ratioBits num den

/-- The magnitude of a product, rounded. -/
def productBits (f g : Binary64) : Nat :=
  nearest (f.ratio.1 * g.ratio.1) (f.ratio.2 * g.ratio.2)

/-- The magnitude of a quotient, rounded. -/
def quotientBits (f g : Binary64) : Nat :=
  nearest (f.ratio.1 * g.ratio.2) (f.ratio.2 * g.ratio.1)

/-- The quotient by a power of ten of a number that is not negative: in steps of the largest
power while the exponent is beyond it, until nothing is left to divide. -/
def divideByTen (f : Binary64) (exponent : Nat) : Binary64 :=
  if exponent ≤ maxTen then ⟨UInt64.ofNat (f.quotientBits (ten exponent))⟩
  else if f.magnitude = 0 then f
  else divideByTen ⟨UInt64.ofNat (f.quotientBits (ten maxTen))⟩ (exponent - maxTen)
termination_by exponent
decreasing_by simp only [maxTen] at *; omega

/-- The significand, rounded to a number, times the power of ten, rounded again; a negative power
divides. None if that is beyond the finite numbers. -/
def scaled? (negative : Bool) (significand : Nat) (scale : Int) : Option Binary64 :=
  let f := ofInt significand
  if scale < 0 then ofMagnitude? negative (f.divideByTen scale.natAbs).magnitude
  else if scale.toNat ≤ maxTen then ofMagnitude? negative (f.productBits (ten scale.toNat))
  else if significand = 0 then ofMagnitude? negative 0
  else none

/-- The bits as sixteen hexadecimal digits. -/
def hex (f : Binary64) : String :=
  let ds := Nat.toDigits 16 f.bits.toNat
  String.ofList (List.replicate (16 - ds.length) '0' ++ ds)

end Binary64

end SparkLedger

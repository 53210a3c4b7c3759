/-!
# Blanks around a value

Blanks are the characters with Unicode's property White_Space.
-/

namespace SparkLedger.Text

/-- Whether a character is blank. -/
def isBlank (c : Char) : Bool :=
  let n := c.toNat
  (0x09 ≤ n && n ≤ 0x0d) || n == 0x20 || n == 0x85 || n == 0xa0 || n == 0x1680 ||
  (0x2000 ≤ n && n ≤ 0x200a) || n == 0x2028 || n == 0x2029 || n == 0x202f || n == 0x205f ||
  n == 0x3000

/-- The characters without the blanks at both ends. -/
def trim (cs : List Char) : List Char :=
  ((cs.dropWhile isBlank).reverse.dropWhile isBlank).reverse

/-- The decimal digits of a text, as a number. -/
def digits? : Nat → List Char → Option Nat
  | value, [] => some value
  | value, c :: cs =>
    if '0' ≤ c ∧ c ≤ '9' then digits? (value * 10 + (c.toNat - '0'.toNat)) cs else none

/-- An unsigned decimal number: at least one digit, after an optional plus sign. -/
def natural? (cs : List Char) : Option Nat :=
  match cs with
  | [] => none
  | ['+'] => none
  | '+' :: cs => digits? 0 cs
  | cs => digits? 0 cs

end SparkLedger.Text

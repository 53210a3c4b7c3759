/-!
# Form encoding of query values

Letters, digits and `*`, `-`, `.`, `_` stand for themselves, a space becomes a plus sign, and
every other byte of the UTF-8 form becomes a percent sign with two hexadecimal digits.
-/

namespace SparkLedger.Text

/-- Whether a byte stands for itself in a query value. -/
def isPlain (b : UInt8) : Bool :=
  (0x30 ≤ b && b ≤ 0x39) || (0x41 ≤ b && b ≤ 0x5a) || (0x61 ≤ b && b ≤ 0x7a) ||
  b == 0x2a || b == 0x2d || b == 0x2e || b == 0x5f

/-- A byte of a query value. -/
def formByte (b : UInt8) : List Char :=
  let digit (n : Nat) : Char := "0123456789ABCDEF".toList.getD n '0'
  if isPlain b then [Char.ofNat b.toNat]
  else if b = 0x20 then ['+']
  else ['%', digit (b.toNat / 16), digit (b.toNat % 16)]

/-- A query value. -/
def formEncoded (s : String) : String :=
  String.ofList (s.toUTF8.toList.flatMap formByte)

end SparkLedger.Text

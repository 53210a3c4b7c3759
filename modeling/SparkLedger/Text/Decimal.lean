/-!
# Integers as decimal text

The one decimal text of an integer, and a reader that accepts exactly that: no plus sign, no
leading zero, no sign in front of zero.

* `ofText?_text`: an integer reads back from its text.
* `eq_text_of_ofText?`: nothing else reads as that integer.
-/

namespace SparkLedger.Text.Decimal

/-- The decimal text of an integer. -/
def text (i : Int) : String :=
  String.ofList (if i < 0 then '-' :: Nat.toDigits 10 i.natAbs else Nat.toDigits 10 i.natAbs)

/-- The number whose decimal digits these are, if they are written as digits are. -/
def magnitude? (cs : List Char) : Option Nat :=
  let n := Nat.ofDigitChars 10 cs 0
  if Nat.toDigits 10 n = cs then some n else none

/-- The integer whose text these characters are. -/
def ofChars? (cs : List Char) : Option Int :=
  match cs with
  | '-' :: ds =>
    match magnitude? ds with
    | some (n + 1) => some (Int.negSucc n)
    | _ => none
  | ds => (magnitude? ds).map Int.ofNat

/-- The integer whose text this is. -/
def ofText? (s : String) : Option Int := ofChars? s.toList

@[simp] theorem magnitude?_toDigits (n : Nat) : magnitude? (Nat.toDigits 10 n) = some n := by
  simp [magnitude?, Nat.ofDigitChars_toDigits (n := n) (by decide : 1 < 10) (by decide)]

theorem toDigits_ne_minus (n : Nat) (ds : List Char) : Nat.toDigits 10 n ≠ '-' :: ds := by
  intro h
  have : ('-' : Char).isDigit = true :=
    Nat.isDigit_of_mem_toDigits (by decide) (by decide) (h ▸ List.mem_cons_self)
  exact absurd this (by decide)

@[simp] theorem ofText?_text (i : Int) : ofText? (text i) = some i := by
  unfold ofText? text
  rw [String.toList_ofList]
  split
  · rename_i h
    obtain ⟨n, rfl⟩ : ∃ n : Nat, i = Int.negSucc n := ⟨i.natAbs - 1, by omega⟩
    simp [ofChars?, Int.natAbs_negSucc]
  · rename_i h
    obtain ⟨n, rfl⟩ : ∃ n : Nat, i = Int.ofNat n := Int.eq_ofNat_of_zero_le (by omega)
    unfold ofChars?
    split
    · rename_i ds heq
      exact absurd heq (toDigits_ne_minus _ ds)
    · simp

theorem toDigits_of_magnitude? {cs : List Char} {n : Nat} (h : magnitude? cs = some n) :
    Nat.toDigits 10 n = cs := by
  unfold magnitude? at h
  dsimp only at h
  split at h
  · cases h
    assumption
  · cases h

theorem eq_text_of_ofText? {s : String} {i : Int} (h : ofText? s = some i) : s = text i := by
  suffices hs : s.toList = (text i).toList from String.toList_inj.1 hs
  unfold ofText? ofChars? at h
  rw [text, String.toList_ofList]
  split at h
  · rename_i ds heq
    split at h
    · rename_i n hn
      cases h
      rw [heq, ← toDigits_of_magnitude? hn, if_pos (Int.negSucc_lt_zero n), Int.natAbs_negSucc]
    · cases h
  · obtain ⟨n, hn, rfl⟩ := Option.map_eq_some_iff.1 h
    rw [← toDigits_of_magnitude? hn]
    rfl

end SparkLedger.Text.Decimal

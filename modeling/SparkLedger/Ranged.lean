/-!
# Integers of a range

`Ranged lo hi` is an integer together with its bounds, so a number that was read from a record
or an environment variable stays in range by its type. Addition and subtraction of 64-bit
numbers name the operation that left the range instead of wrapping.

* `ofInt?_eq_some_iff`: reading an integer succeeds exactly in the range, with that value.
* `Signed64.add_eq_ok_iff`, `Signed64.sub_eq_ok_iff`: a checked operation succeeds exactly when
  the exact result is in range, and then it is that result.
* `Checked.bind_eq_ok_iff`: checked computations compose.
-/

namespace SparkLedger

/-- An integer of the closed range from `lo` to `hi`. -/
@[ext]
structure Ranged (lo hi : Int) where
  /-- The integer itself. -/
  val : Int
  lo_le : lo ≤ val
  le_hi : val ≤ hi
  deriving DecidableEq

namespace Ranged

variable {lo hi : Int}

/-- The integer as a member of the range, if it is one. -/
def ofInt? (i : Int) : Option (Ranged lo hi) :=
  if h : lo ≤ i ∧ i ≤ hi then some ⟨i, h.1, h.2⟩ else none

theorem ofInt?_eq_some_iff {i : Int} {r : Ranged lo hi} : ofInt? i = some r ↔ r.val = i := by
  unfold ofInt?
  split
  · rename_i h
    exact ⟨fun e => by cases e; rfl, fun e => by cases r; cases e; rfl⟩
  · rename_i h
    refine ⟨nofun, fun e => ?_⟩
    cases e
    exact absurd ⟨r.lo_le, r.le_hi⟩ h

@[simp] theorem ofInt?_val (r : Ranged lo hi) : ofInt? r.val = some r :=
  ofInt?_eq_some_iff.2 rfl

theorem ofInt?_eq_none_iff {i : Int} :
    (ofInt? i : Option (Ranged lo hi)) = none ↔ ¬(lo ≤ i ∧ i ≤ hi) := by
  unfold ofInt?
  split <;> simp_all

/-! ## Order -/

instance : Ord (Ranged lo hi) := ⟨fun a b => compare a.val b.val⟩

theorem compare_def (a b : Ranged lo hi) : compare a b = compare a.val b.val := rfl

instance : Std.TransOrd (Ranged lo hi) where
  eq_swap := by
    intro a b
    rw [compare_def, compare_def]
    exact Std.OrientedCmp.eq_swap
  isLE_trans := by
    intro a b c hab hbc
    rw [compare_def] at *
    exact Std.TransCmp.isLE_trans hab hbc

instance : Std.LawfulEqOrd (Ranged lo hi) where
  compare_self := by
    intro a
    rw [compare_def]
    exact Std.ReflCmp.compare_self
  eq_of_compare := by
    intro a b h
    rw [compare_def] at h
    exact Ranged.ext (Std.LawfulEqCmp.eq_of_compare h)

theorem compare_eq_lt_iff {a b : Ranged lo hi} : compare a b = .lt ↔ a.val < b.val := by
  rw [compare_def]
  exact Int.compare_eq_lt

end Ranged

/-- A signed 64-bit number: byte counts, durations, stage ids. -/
abbrev Signed64 := Ranged (-9223372036854775808) 9223372036854775807

/-- A signed 32-bit number: restart counts, exit codes. -/
abbrev Signed32 := Ranged (-2147483648) 2147483647

/-- A network port. -/
abbrev Port := Ranged 0 65535

/-- A whole number of seconds. -/
abbrev Seconds := Ranged 0 18446744073709551615

/-- Which operation left the range of 64-bit numbers. -/
inductive Overflow where
  | add
  | sub
  deriving DecidableEq, Repr

/-- The wording of an overflow. -/
def Overflow.message : Overflow → String
  | .add => "attempt to add with overflow"
  | .sub => "attempt to subtract with overflow"

/-- A checked computation in two parts succeeds if both do. -/
theorem Checked.bind_eq_ok_iff {ε α β : Type} {x : Except ε α} {f : α → Except ε β} {b : β} :
    (x >>= f) = .ok b ↔ ∃ a, x = .ok a ∧ f a = .ok b := by
  cases x with
  | error e => exact ⟨fun h => (nomatch h), fun ⟨_, h, _⟩ => (nomatch h)⟩
  | ok a => exact ⟨fun h => ⟨a, rfl, h⟩, fun ⟨_, h, h'⟩ => by cases h; exact h'⟩

theorem Checked.foldlM_cons_eq_ok_iff {ε α β : Type} {f : β → α → Except ε β} {a : α}
    {as : List α} {b c : β} :
    (a :: as).foldlM f b = .ok c ↔ ∃ mid, f b a = .ok mid ∧ as.foldlM f mid = .ok c := by
  rw [List.foldlM_cons, bind_eq_ok_iff]

namespace Signed64

instance : Zero Signed64 := ⟨⟨0, by decide, by decide⟩⟩

instance : Inhabited Signed64 := ⟨0⟩

instance : Std.TransOrd Signed64 := inferInstanceAs (Std.TransOrd (Ranged _ _))

instance : Std.LawfulEqOrd Signed64 := inferInstanceAs (Std.LawfulEqOrd (Ranged _ _))

@[simp] theorem zero_val : (0 : Signed64).val = 0 := rfl

/-- The sum, if it is a 64-bit number. -/
def add (a b : Signed64) : Except Overflow Signed64 :=
  match Ranged.ofInt? (a.val + b.val) with
  | some c => .ok c
  | none => .error .add

/-- The difference, if it is a 64-bit number. -/
def sub (a b : Signed64) : Except Overflow Signed64 :=
  match Ranged.ofInt? (a.val - b.val) with
  | some c => .ok c
  | none => .error .sub

theorem add_eq_ok_iff {a b c : Signed64} : a.add b = .ok c ↔ c.val = a.val + b.val := by
  rw [← Ranged.ofInt?_eq_some_iff, add]
  split <;> simp_all

theorem sub_eq_ok_iff {a b c : Signed64} : a.sub b = .ok c ↔ c.val = a.val - b.val := by
  rw [← Ranged.ofInt?_eq_some_iff, sub]
  split <;> simp_all

end Signed64

namespace Signed32

instance : Zero Signed32 := ⟨⟨0, by decide, by decide⟩⟩

instance : Inhabited Signed32 := ⟨0⟩

end Signed32

namespace Seconds

/-- Ten seconds. -/
def ten : Seconds := ⟨10, by decide, by decide⟩

/-- The number of seconds as a natural number. -/
def toNat (s : Seconds) : Nat := s.val.toNat

end Seconds

end SparkLedger

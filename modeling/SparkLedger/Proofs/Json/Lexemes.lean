import SparkLedger.Json.Reader
import SparkLedger.Proofs.Json.Printed

/-!
# Printed strings and numbers, read back

What the reader makes of the bytes that the printer gives for a string or for an integer. It stops
where they end: a string at its quote, a number at a byte that cannot go on with it.

* `encode_escaped`: how a character inside a string is printed.
  `string_escaped`: what is read of it.
* `string_quoted`: a whole string.
* `number_encode`: an integer of 64 bits.
-/

namespace SparkLedger.Json

open Reader

/-! ## Strings -/

variable {rest : Input}

/-- A byte that stands for itself inside a string. -/
def Literal (b : UInt8) : Prop := ¬b < 0x20 ∧ b ≠ 0x22 ∧ b ≠ 0x5c

theorem string_literal {b : UInt8} (h : Literal b) (bytes : ByteArray) (sound : Bool) :
    string bytes sound (b :: rest) = string (bytes.push b) sound rest := by
  obtain ⟨h₁, h₂, h₃⟩ := h
  rw [string]
  · simp [h₁, h₃]
  all_goals simp_all

theorem string_literals {bs : List UInt8} (h : ∀ b ∈ bs, Literal b) (bytes : ByteArray)
    (sound : Bool) :
    string bytes sound (bs ++ rest) = string (bytes ++ bs.toByteArray) sound rest := by
  induction bs generalizing bytes with
  | nil => simp
  | cons b bs ih =>
    obtain ⟨hb, hbs⟩ := List.forall_mem_cons.1 h
    rw [List.cons_append, string_literal hb, ih hbs, ← ByteArray.append_toByteArray_singleton,
      ByteArray.append_assoc, ← List.toByteArray_append, List.singleton_append]

theorem string_shortEscape {e b : UInt8} (h : shortEscape? e = some b) (bytes : ByteArray)
    (sound : Bool) :
    string bytes sound (0x5c :: e :: rest) = string (bytes.push b) sound rest := by
  have he : e ≠ 0x75 := by
    rintro rfl
    cases h
  rw [string]
  · simp [h]
  all_goals simp_all

theorem string_unit {a b c d : UInt8} {u : Nat} (h : unit? a b c d = some u)
    (hu : isSurrogate u = false) (bytes : ByteArray) (sound : Bool) :
    string bytes sound (0x5c :: 0x75 :: a :: b :: c :: d :: rest) =
      string (bytes ++ (Char.ofNat u).toString.toUTF8) sound rest := by
  by_cases hrest : ∃ e f g i rest', rest = 0x5c :: 0x75 :: e :: f :: g :: i :: rest'
  · obtain ⟨e, f, g, i, rest', rfl⟩ := hrest
    rw [string, h]
    simp [hu]
  · rw [string, h]
    · simp [hu]
    · rintro e f g i rest' rfl
      exact hrest ⟨e, f, g, i, rest', rfl⟩

/-! ## Escapes -/

theorem utf8EncodeChar_of_lt {c : Char} (h : c.toNat < 0x80) :
    String.utf8EncodeChar c = [UInt8.ofNat c.toNat] := by
  have hval : c.val ≤ 127 := UInt32.le_iff_toNat_le.2 (Nat.le_of_lt_succ h)
  rw [String.utf8EncodeChar_eq_singleton (Char.utf8Size_eq_one_iff.2 hval)]
  rfl

private theorem literal_of_toNat {b : UInt8} (h : 0x20 ≤ b.toNat) (hquote : b.toNat ≠ 0x22)
    (hslash : b.toNat ≠ 0x5c) : Literal b := by
  refine ⟨fun hlt => ?_, ?_, ?_⟩
  · exact absurd (UInt8.lt_iff_toNat_lt.1 hlt) (Nat.not_lt.2 h)
  · rintro rfl
    exact hquote rfl
  · rintro rfl
    exact hslash rfl

private theorem literal_or (x : UInt8) {y : UInt8} (hy : 0x80 ≤ y.toNat) : Literal (x ||| y) := by
  have hle : y.toNat ≤ (x ||| y).toNat := by
    rw [UInt8.toNat_or]
    exact Nat.right_le_or
  exact literal_of_toNat (by omega) (by omega) (by omega)

/-- A character that needs no escape stands for itself, in all its bytes. -/
theorem literal_of_mem {c : Char} (hc : ¬c.toNat < 0x20) (hquote : c ≠ '"') (hslash : c ≠ '\\') :
    ∀ b ∈ String.utf8EncodeChar c, Literal b := by
  by_cases hascii : c.toNat < 0x80
  · have hnat : (UInt8.ofNat c.toNat).toNat = c.toNat :=
      UInt8.toNat_ofNat_of_lt' (Nat.lt_trans hascii (by decide))
    rw [utf8EncodeChar_of_lt hascii, List.forall_mem_singleton]
    refine literal_of_toNat (by omega) (fun h => hquote ?_) fun h => hslash ?_
    · exact Char.toNat_inj.1 (hnat.symm.trans h)
    · exact Char.toNat_inj.1 (hnat.symm.trans h)
  · -- All bytes of a longer character have their first bit set.
    have hval : ¬c.val ≤ 127 := fun h => hascii (Nat.lt_succ_of_le (UInt32.le_iff_toNat_le.1 h))
    rcases c.utf8Size_eq with h | h | h | h
    · exact absurd (Char.utf8Size_eq_one_iff.1 h) hval
    · rw [String.utf8EncodeChar_eq_cons_cons h]
      simp [literal_or]
    · rw [String.utf8EncodeChar_eq_cons_cons_cons h]
      simp [literal_or]
    · rw [String.utf8EncodeChar_eq_cons_cons_cons_cons h]
      simp [literal_or]

/-- The byte of a hexadecimal digit. -/
def hexByte (n : Nat) : UInt8 := (hexDigit n).toNat.toUInt8

private theorem utf8EncodeChar_hexDigit :
    ∀ n < 16, String.utf8EncodeChar (hexDigit n) = [hexByte n] := by
  decide

private theorem unit?_hexByte : ∀ n < 0x20,
    unit? 0x30 0x30 (hexByte (n / 16)) (hexByte (n % 16)) = some n := by
  decide

private theorem exists_shortEscape {c : Char}
    (h : c ∈ ['"', '\\', '\n', '\r', '\t', '\x08', '\x0c']) :
    ∃ e b, encode (escaped c) = [0x5c, e] ∧ shortEscape? e = some b ∧
      String.utf8EncodeChar c = [b] := by
  simp only [List.mem_cons, List.not_mem_nil, or_false] at h
  rcases h with rfl | rfl | rfl | rfl | rfl | rfl | rfl
  · exact ⟨0x22, 0x22, rfl, rfl, rfl⟩
  · exact ⟨0x5c, 0x5c, rfl, rfl, rfl⟩
  · exact ⟨0x6e, 0x0a, rfl, rfl, rfl⟩
  · exact ⟨0x72, 0x0d, rfl, rfl, rfl⟩
  · exact ⟨0x74, 0x09, rfl, rfl, rfl⟩
  · exact ⟨0x62, 0x08, rfl, rfl, rfl⟩
  · exact ⟨0x66, 0x0c, rfl, rfl, rfl⟩

/-- A character inside a string is printed by a short escape, by its unit, or as it is. -/
theorem encode_escaped (c : Char) :
    (∃ e b, encode (escaped c) = [0x5c, e] ∧ shortEscape? e = some b ∧
      String.utf8EncodeChar c = [b]) ∨
    (∃ x y, encode (escaped c) = [0x5c, 0x75, 0x30, 0x30, x, y] ∧
      unit? 0x30 0x30 x y = some c.toNat ∧ isSurrogate c.toNat = false) ∨
    (encode (escaped c) = String.utf8EncodeChar c ∧ ∀ b ∈ String.utf8EncodeChar c, Literal b) := by
  by_cases hshort : c ∈ ['"', '\\', '\n', '\r', '\t', '\x08', '\x0c']
  · exact .inl (exists_shortEscape hshort)
  · simp only [List.mem_cons, List.not_mem_nil, or_false, not_or] at hshort
    obtain ⟨hquote, hslash, h₁, h₂, h₃, h₄, h₅⟩ := hshort
    by_cases hc : c.toNat < 0x20
    · have hunit := unit?_hexByte c.toNat hc
      refine .inr (.inl ⟨hexByte (c.toNat / 16), hexByte (c.toNat % 16), ?_, hunit, ?_⟩)
      · simp only [escaped, hquote, hslash, h₁, h₂, h₃, h₄, h₅, hc, if_true, if_false, encode_cons,
          utf8EncodeChar_hexDigit _ (by omega : c.toNat / 16 < 16),
          utf8EncodeChar_hexDigit _ (by omega : c.toNat % 16 < 16)]
        rfl
      · simp only [isSurrogate, decide_eq_false_iff_not]
        omega
    · refine .inr (.inr ⟨?_, literal_of_mem hc hquote hslash⟩)
      simp [escaped, hquote, hslash, h₁, h₂, h₃, h₄, h₅, hc, encode]

/-- What is printed of a character inside a string reads as its bytes. -/
theorem string_escaped (c : Char) (bytes : ByteArray) (sound : Bool) :
    string bytes sound (encode (escaped c) ++ rest) =
      string (bytes ++ [c].utf8Encode) sound rest := by
  rw [List.utf8Encode_singleton]
  rcases encode_escaped c with ⟨e, b, hcs, he, hc⟩ | ⟨x, y, hcs, hu, hsurrogate⟩ | ⟨hcs, hc⟩
  · rw [hcs, hc, ByteArray.append_toByteArray_singleton]
    exact string_shortEscape he bytes sound
  · rw [hcs, ← List.utf8Encode_singleton]
    refine (string_unit hu hsurrogate bytes sound).trans ?_
    rw [Char.ofNat_toNat]
    simp
  · rw [hcs, string_literals hc]

/-- Escapes make no character shorter. -/
theorem length_encode_le (cs : List Char) :
    (encode cs).length ≤ (encode (cs.flatMap escaped)).length := by
  induction cs with
  | nil => exact Nat.le_refl _
  | cons c cs ih =>
    have hc : (String.utf8EncodeChar c).length ≤ (encode (escaped c)).length := by
      rcases encode_escaped c with ⟨e, b, hcs, -, hc⟩ | ⟨x, y, hcs, -⟩ | ⟨hcs, -⟩
      · rw [hcs, hc]
        exact Nat.le_succ 1
      · have hsize := c.utf8Size_le_four
        rw [hcs, String.length_utf8EncodeChar]
        simp only [List.length_cons, List.length_nil]
        omega
      · exact Nat.le_of_eq (congrArg List.length hcs.symm)
    rw [encode_cons, List.flatMap_cons, encode_append, List.length_append, List.length_append]
    omega

/-- What is printed of a string reads as the string. -/
theorem string_quoted (s : String) :
    string .empty true (encode (s.toList.flatMap escaped) ++ 0x22 :: rest) =
      some (some s, rest) := by
  have hread (cs : List Char) (bytes : ByteArray) :
      string bytes true (encode (cs.flatMap escaped) ++ 0x22 :: rest) =
        some (String.fromUTF8? (bytes ++ cs.utf8Encode), rest) := by
    induction cs generalizing bytes with
    | nil => simp [string]
    | cons c cs ih =>
      rw [List.flatMap_cons, encode_append, List.append_assoc, string_escaped, ih,
        ByteArray.append_assoc, ← List.utf8Encode_append, List.singleton_append]
  rw [hread, ByteArray.empty_append, String.utf8Encode_toList, String.fromUTF8?]
  simp [String.fromUTF8, s.isValidUTF8]

/-! ## Numbers -/

/-- What can follow a number: nothing that could go on with it. -/
def Stops (rest : Input) : Prop :=
  ∀ b ∈ rest.head?, digit? b = none ∧ b ≠ 0x2e ∧ b ≠ 0x65 ∧ b ≠ 0x45

theorem digit?_of_isDigit {c : Char} (h : c.isDigit = true) :
    ∃ b, String.utf8EncodeChar c = [b] ∧ digit? b = some (c.toNat - 0x30) := by
  have hdigit : ∀ n < 0x3a, 0x30 ≤ n → digit? (UInt8.ofNat n) = some (n - 0x30) := by decide
  obtain ⟨hlo, hhi⟩ : 0x30 ≤ c.toNat ∧ c.toNat ≤ 0x39 := Char.isDigit_iff_toNat.1 h
  exact ⟨_, utf8EncodeChar_of_lt (by omega), hdigit c.toNat (by omega) hlo⟩

theorem digits_encode {cs : List Char} (h : ∀ c ∈ cs, c.isDigit = true) (hrest : Stops rest) :
    digits (encode cs ++ rest) = (cs.map (·.toNat - 0x30), rest) := by
  induction cs with
  | nil =>
    cases rest with
    | nil => rfl
    | cons b rest =>
      have hb := (hrest b rfl).1
      simp [digits, hb]
  | cons c cs ih =>
    obtain ⟨hc, hcs⟩ := List.forall_mem_cons.1 h
    obtain ⟨b, hb, hdigit⟩ := digit?_of_isDigit hc
    rw [encode_cons, hb, List.append_assoc, List.singleton_append, digits, hdigit, ih hcs]
    rfl

theorem escaped_of_isDigit {c : Char} (h : c.isDigit = true) : escaped c = [c] := by
  have hdigit : ∀ n < 0x3a, 0x30 ≤ n → escaped (Char.ofNat n) = [Char.ofNat n] := by decide
  obtain ⟨hlo, hhi⟩ : 0x30 ≤ c.toNat ∧ c.toNat ≤ 0x39 := Char.isDigit_iff_toNat.1 h
  have hc := hdigit c.toNat (by omega) hlo
  rwa [Char.ofNat_toNat] at hc

theorem isDigit_of_mem_toDigits {n : Nat} {c : Char} (h : c ∈ Nat.toDigits 10 n) :
    c.isDigit = true :=
  Nat.isDigit_of_mem_toDigits (by decide) (by decide) h

/-- The digits of a number start with one. -/
theorem exists_encode_toDigits_eq (n : Nat) :
    ∃ b bs, encode (Nat.toDigits 10 n) = b :: bs ∧ (digit? b).isSome := by
  obtain ⟨c, cs, hcs⟩ := List.exists_cons_of_ne_nil (Nat.toDigits_ne_nil (n := n) (b := 10))
  have hc : c ∈ Nat.toDigits 10 n := hcs ▸ List.mem_cons_self
  obtain ⟨b, hb, hdigit⟩ := digit?_of_isDigit (isDigit_of_mem_toDigits hc)
  exact ⟨b, encode cs, by rw [hcs, encode_cons, hb]; rfl, by rw [hdigit]; rfl⟩

private theorem foldl_digits (cs : List Char) (n : Nat) :
    (cs.map (·.toNat - 0x30)).foldl (fun n d => n * 10 + d) n = Nat.ofDigitChars 10 cs n := by
  induction cs generalizing n with
  | nil => simp
  | cons c cs ih =>
    rw [List.map_cons, List.foldl_cons, ih, Nat.ofDigitChars_cons, Nat.mul_comm]
    rfl

/-- A positive number is written without a zero in front. -/
theorem exists_toDigits_eq (n : Nat) (h : 0 < n) :
    ∃ c cs, Nat.toDigits 10 n = c :: cs ∧ c.toNat - 0x30 ≠ 0 := by
  induction n using Nat.strongRecOn with
  | ind n ih =>
    by_cases hn : n < 10
    · have hdigit : ∀ n < 10, 0 < n → n.digitChar.toNat - 0x30 ≠ 0 := by decide
      exact ⟨_, _, Nat.toDigits_of_lt_base hn, hdigit n hn h⟩
    · obtain ⟨c, cs, hcs, hc⟩ := ih (n / 10) (by omega) (by omega)
      exact ⟨c, _, by rw [Nat.toDigits_of_base_le (by decide) (by omega), hcs]; rfl, hc⟩

private theorem wholeDigits_eq {input : Input} {d : Nat} {ds : List Nat}
    (h : digits input = (d :: ds, rest)) (hzero : d = 0 → ds = []) :
    wholeDigits input = some (d :: ds, rest) := by
  simp only [wholeDigits, someDigits, h, Option.bind_eq_bind, Option.bind_some]
  split
  · rename_i heq
    cases heq
    cases hzero rfl
  · rfl

theorem wholeDigits_encode (n : Nat) (hrest : Stops rest) :
    ∃ ds, wholeDigits (encode (Nat.toDigits 10 n) ++ rest) = some (ds, rest) ∧ ofDigits ds = n := by
  have hdigits := digits_encode (fun c => isDigit_of_mem_toDigits (n := n)) hrest
  have hvalue : ofDigits ((Nat.toDigits 10 n).map (·.toNat - 0x30)) = n := by
    rw [ofDigits, foldl_digits, Nat.ofDigitChars_ten_toDigits]
  refine ⟨_, ?_, hvalue⟩
  rcases Nat.eq_zero_or_pos n with rfl | hn
  · exact wholeDigits_eq hdigits fun _ => rfl
  · obtain ⟨c, cs, hcs, hc⟩ := exists_toDigits_eq n hn
    rw [hcs] at hdigits ⊢
    exact wholeDigits_eq hdigits fun h => absurd h hc

theorem fractionDigits_of_stops (hrest : Stops rest) : fractionDigits rest = some (none, rest) := by
  unfold fractionDigits
  split
  · exact absurd rfl (hrest 0x2e rfl).2.1
  · rfl

theorem exponent_of_stops (hrest : Stops rest) : exponent rest = some (none, rest) := by
  cases rest with
  | nil => rfl
  | cons b rest =>
    obtain ⟨-, -, h₁, h₂⟩ := hrest b rfl
    simp [exponent, h₁, h₂]

private theorem number_of_wholeDigits {b : UInt8} {input : Input} {ds : List Nat}
    (hb : (digit? b).isSome) (hrest : Stops rest)
    (h : wholeDigits (b :: input) = some (ds, rest)) :
    number (b :: input) = some (Numeral.value ⟨false, ds, none, none⟩, rest) := by
  unfold number
  split
  rename_i heq
  split at heq
  · rename_i hinput
    cases hinput
    cases hb
  · cases heq
    simp only [h, Option.bind_eq_bind, Option.bind_some, fractionDigits_of_stops hrest,
      exponent_of_stops hrest, Option.pure_def]

private theorem number_minus_of_wholeDigits {input : Input} {ds : List Nat} (hrest : Stops rest)
    (h : wholeDigits input = some (ds, rest)) :
    number (0x2d :: input) = some (Numeral.value ⟨true, ds, none, none⟩, rest) := by
  unfold number
  split
  rename_i heq
  cases heq
  simp only [h, Option.bind_eq_bind, Option.bind_some, fractionDigits_of_stops hrest,
    exponent_of_stops hrest, Option.pure_def]

private theorem value_integer {negative : Bool} {ds : List Nat} {i : Int}
    (hi : Numeral.integer ⟨negative, ds, none, none⟩ = i) (hlo : -9223372036854775808 ≤ i)
    (hhi : i < 18446744073709551616) (hzero : negative = true → i ≠ 0) :
    Numeral.value ⟨negative, ds, none, none⟩ = .int i := by
  have hinteger : Numeral.isInteger ⟨negative, ds, none, none⟩ = true := by
    cases negative <;> simp_all [Numeral.isInteger]
  rw [Numeral.value, if_pos hinteger, hi]

theorem encode_toString (i : Int) :
    encode (toString i).toList =
      if 0 ≤ i then encode (Nat.toDigits 10 i.natAbs)
      else 0x2d :: encode (Nat.toDigits 10 i.natAbs) := by
  rw [Int.toString_eq_repr, Int.repr_eq_if]
  split
  · rw [Nat.toList_repr, show i.toNat = i.natAbs by omega]
  · rw [String.toList_append, Nat.toList_repr, show (-i).toNat = i.natAbs by omega, encode_append]
    rfl

/-- What is printed of an integer reads as the integer. -/
theorem number_encode {i : Int} (hlo : -9223372036854775808 ≤ i) (hhi : i < 18446744073709551616)
    (hrest : Stops rest) : number (encode (toString i).toList ++ rest) = some (.int i, rest) := by
  obtain ⟨ds, hds, hvalue⟩ := wholeDigits_encode i.natAbs hrest
  rw [encode_toString]
  split
  · rename_i hi
    have hsign : Numeral.integer ⟨false, ds, none, none⟩ = i := by
      simp only [Numeral.integer, hvalue, Bool.false_eq_true, if_false]
      omega
    obtain ⟨b, bs, hbs, hb⟩ := exists_encode_toDigits_eq i.natAbs
    rw [hbs, List.cons_append] at hds ⊢
    rw [number_of_wholeDigits hb hrest hds, value_integer hsign hlo hhi nofun]
  · rename_i hi
    have hsign : Numeral.integer ⟨true, ds, none, none⟩ = i := by
      simp only [Numeral.integer, hvalue, if_true]
      omega
    rw [List.cons_append, number_minus_of_wholeDigits hrest hds,
      value_integer hsign hlo hhi fun _ => by omega]

end SparkLedger.Json

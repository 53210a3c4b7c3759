import SparkLedger.Text.Blank

/-!
# Numerals with blanks around them

What the reader of numbers takes. A number may have zeros and a plus sign in front of its digits,
and blanks around it; nothing else is read as it.

* `Padded`, `trim_eq_of_padded`: a text with blanks around it, and how they are taken off.
* `Numeral`, `natural?_eq_some_iff`: the ways to write a number, and that just these are read.
-/

namespace SparkLedger.Text

/-! ## Blanks -/

/-- Characters with blanks around them, or without. -/
def Padded (core cs : List Char) : Prop :=
  ∃ before after, (∀ c ∈ before, isBlank c = true) ∧ (∀ c ∈ after, isBlank c = true) ∧
    cs = before ++ core ++ after

theorem padded_trim (cs : List Char) : Padded (trim cs) cs := by
  have hblank (ds : List Char) : ∀ c ∈ ds.takeWhile isBlank, isBlank c = true :=
    List.all_eq_true.1 List.all_takeWhile
  generalize hrest : cs.dropWhile isBlank = rest
  have hcs : cs = cs.takeWhile isBlank ++ rest := by
    rw [← hrest, List.takeWhile_append_dropWhile]
  have htrim : rest = trim cs ++ (rest.reverse.takeWhile isBlank).reverse := by
    rw [trim, hrest, ← List.reverse_append, List.takeWhile_append_dropWhile, List.reverse_reverse]
  refine ⟨_, _, hblank cs, fun c hc => hblank rest.reverse c (List.mem_reverse.1 hc), ?_⟩
  rw [List.append_assoc, ← htrim, ← hcs]

/-- Characters of which none is blank are what is left when the blanks around them are taken
off. -/
theorem trim_eq_of_padded {core cs : List Char} (h : Padded core cs)
    (hcore : ∀ c ∈ core, isBlank c = false) : trim cs = core := by
  obtain ⟨before, after, hbefore, hafter, rfl⟩ := h
  have hstop {ds : List Char} (hds : ∀ c ∈ ds, isBlank c = false) : ds.dropWhile isBlank = ds := by
    cases ds with
    | nil => rfl
    | cons d ds => exact List.dropWhile_cons_of_neg (by simp [hds d List.mem_cons_self])
  have hgone {ds : List Char} (hds : ∀ c ∈ ds, isBlank c = true) : ds.dropWhile isBlank = [] := by
    rw [← List.append_nil ds, List.dropWhile_append_of_pos hds, List.dropWhile_nil]
  have hfront : (core ++ after).dropWhile isBlank = if core.isEmpty then [] else core ++ after := by
    rw [List.dropWhile_append, hstop hcore, hgone hafter]
  have hback : (core ++ after).reverse.dropWhile isBlank = core.reverse := by
    rw [List.reverse_append,
      List.dropWhile_append_of_pos fun c hc => hafter c (List.mem_reverse.1 hc),
      hstop fun c hc => hcore c (List.mem_reverse.1 hc)]
  rw [trim, List.append_assoc, List.dropWhile_append_of_pos hbefore, hfront]
  cases core with
  | nil => rfl
  | cons c core => rw [if_neg (by simp), hback, List.reverse_reverse]

/-! ## Numerals -/

/-- The ways to write a number: its digits, behind any number of zeros, behind a plus sign or
without one. -/
def Numeral (n : Nat) (cs : List Char) : Prop :=
  ∃ sign zeros, (sign = [] ∨ sign = ['+']) ∧
    cs = sign ++ (List.replicate zeros '0' ++ Nat.toDigits 10 n)

theorem isDigit_iff {c : Char} : ('0' ≤ c ∧ c ≤ '9') ↔ c.isDigit = true := by
  rw [Char.isDigit_iff_toNat]
  exact Iff.rfl

theorem digits?_of_isDigit {cs : List Char} (h : ∀ c ∈ cs, c.isDigit = true) (value : Nat) :
    digits? value cs = some (Nat.ofDigitChars 10 cs value) := by
  induction cs generalizing value with
  | nil => simp [digits?]
  | cons c cs ih =>
    obtain ⟨hc, hcs⟩ := List.forall_mem_cons.1 h
    rw [digits?, if_pos (isDigit_iff.2 hc), ih hcs, Nat.ofDigitChars_cons, Nat.mul_comm]

/-- What reading the first of some digits comes to. -/
theorem digits?_cons_eq_some_iff {c : Char} {cs : List Char} {value n : Nat} :
    digits? value (c :: cs) = some n ↔
      ∃ d < 10, c = Nat.digitChar d ∧ digits? (value * 10 + d) cs = some n := by
  rw [digits?]
  constructor
  · intro h
    split at h
    · rename_i hc
      obtain ⟨hlo, hhi⟩ : 48 ≤ c.toNat ∧ c.toNat ≤ 57 := hc
      have hd : c.toNat - 48 < 10 := by omega
      refine ⟨c.toNat - 48, hd, ?_, h⟩
      rw [← Char.toNat_inj, Nat.toNat_digitChar_of_lt_ten hd]
      omega
    · cases h
  · rintro ⟨d, hd, rfl, h⟩
    have hdigit : (Nat.digitChar d).isDigit = true := by simpa [Nat.isDigit_digitChar] using hd
    have hvalue : (Nat.digitChar d).toNat - '0'.toNat = d :=
      Nat.toNat_digitChar_sub_48_of_lt_ten hd
    rw [if_pos (isDigit_iff.2 hdigit), hvalue, h]

/-- Digits that are read behind those of a positive number are the rest of its digits. -/
theorem toDigits_append_of_digits? {cs : List Char} {value n : Nat} (hvalue : 0 < value)
    (h : digits? value cs = some n) : Nat.toDigits 10 value ++ cs = Nat.toDigits 10 n := by
  induction cs generalizing value with
  | nil =>
    cases h
    exact List.append_nil _
  | cons c cs ih =>
    obtain ⟨d, hd, rfl, hrest⟩ := digits?_cons_eq_some_iff.1 h
    calc
      Nat.toDigits 10 value ++ Nat.digitChar d :: cs
          = Nat.toDigits 10 value ++ Nat.toDigits 10 d ++ cs := by
            rw [Nat.toDigits_of_lt_base hd, List.append_assoc, List.singleton_append]
      _ = Nat.toDigits 10 (value * 10 + d) ++ cs := by
            rw [Nat.toDigits_append_toDigits (by decide) hvalue hd, Nat.mul_comm]
      _ = Nat.toDigits 10 n := ih (by omega) hrest

theorem exists_zeros_of_digits? {cs : List Char} {n : Nat} (hne : cs ≠ [])
    (h : digits? 0 cs = some n) : ∃ zeros, cs = List.replicate zeros '0' ++ Nat.toDigits 10 n := by
  induction cs with
  | nil => exact absurd rfl hne
  | cons c cs ih =>
    obtain ⟨d, hd, rfl, hrest⟩ := digits?_cons_eq_some_iff.1 h
    rw [Nat.zero_mul, Nat.zero_add] at hrest
    rcases Nat.eq_zero_or_pos d with rfl | hpos
    · -- A zero in front, unless it is all there is.
      by_cases hcs : cs = []
      · subst hcs
        cases hrest
        exact ⟨0, rfl⟩
      · obtain ⟨zeros, hzeros⟩ := ih hcs hrest
        exact ⟨zeros + 1, by rw [List.replicate_succ, List.cons_append, ← hzeros]; rfl⟩
    · refine ⟨0, ?_⟩
      have hdigits := toDigits_append_of_digits? hpos hrest
      rw [Nat.toDigits_of_lt_base hd] at hdigits
      simpa using hdigits

theorem isDigit_of_mem_zeros {zeros n : Nat} {c : Char}
    (h : c ∈ List.replicate zeros '0' ++ Nat.toDigits 10 n) : c.isDigit = true := by
  rcases List.mem_append.1 h with h | h
  · rw [List.eq_of_mem_replicate h]
    rfl
  · exact Nat.isDigit_of_mem_toDigits (by decide) (by decide) h

theorem digits?_zeros (zeros n : Nat) :
    digits? 0 (List.replicate zeros '0' ++ Nat.toDigits 10 n) = some n := by
  rw [digits?_of_isDigit fun c => isDigit_of_mem_zeros, Nat.ofDigitChars_append,
    Nat.ofDigitChars_replicate_zero, Nat.mul_zero, Nat.ofDigitChars_ten_toDigits]

/-- A number is read from what is written as it, and from nothing else. -/
theorem natural?_eq_some_iff {cs : List Char} {n : Nat} : natural? cs = some n ↔ Numeral n cs := by
  constructor
  · intro h
    unfold natural? at h
    split at h
    · cases h
    · cases h
    · rename_i ds hds
      obtain ⟨zeros, rfl⟩ := exists_zeros_of_digits? (by rintro rfl; exact hds rfl) h
      exact ⟨['+'], zeros, .inr rfl, rfl⟩
    · rename_i hnil _ _
      obtain ⟨zeros, rfl⟩ := exists_zeros_of_digits? hnil h
      exact ⟨[], zeros, .inl rfl, rfl⟩
  · rintro ⟨sign, zeros, hsign, rfl⟩
    have hne : List.replicate zeros '0' ++ Nat.toDigits 10 n ≠ [] :=
      List.append_ne_nil_of_right_ne_nil _ Nat.toDigits_ne_nil
    obtain ⟨c, ds, hds⟩ := List.exists_cons_of_ne_nil hne
    have hc : c.isDigit = true := isDigit_of_mem_zeros (hds ▸ List.mem_cons_self)
    have hread := digits?_zeros zeros n
    rw [hds] at hread ⊢
    rcases hsign with rfl | rfl
    · have hplus : c ≠ '+' := by rintro rfl; cases hc
      simpa [natural?, hplus] using hread
    · simpa [natural?] using hread

theorem Numeral.isBlank_eq_false {n : Nat} {cs : List Char} (h : Numeral n cs) :
    ∀ c ∈ cs, isBlank c = false := by
  obtain ⟨sign, zeros, hsign, rfl⟩ := h
  intro c hc
  rcases List.mem_append.1 hc with hc | hc
  · have : c = '+' := by rcases hsign with rfl | rfl <;> simp_all
    subst this
    rfl
  · have hdigit : ∀ n < 58, 48 ≤ n → isBlank (Char.ofNat n) = false := by decide
    obtain ⟨hlo, hhi⟩ : 48 ≤ c.toNat ∧ c.toNat ≤ 57 :=
      Char.isDigit_iff_toNat.1 (isDigit_of_mem_zeros hc)
    have := hdigit c.toNat (by omega) hlo
    rwa [Char.ofNat_toNat] at this

end SparkLedger.Text

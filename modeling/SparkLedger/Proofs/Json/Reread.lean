import Mathlib.Data.List.Basic
import SparkLedger.Proofs.Json.Lexemes
import SparkLedger.Proofs.Json.Parts
import SparkLedger.Ranged

/-!
# Printed documents, read back

A document that was printed reads as itself, with one exception: a key that looks like a number, but
is printed with an escape, does not show as that number any more, and the member under it is marked
so. What nests too deep, and floats, are left out here.

* `blurs`: the keys that do not show as the numbers that they look like.
* `reread`: what a printed document reads as. `reread_of_legible`: itself, if no key blurs.
* `Legible`: the documents of which that is said. `Legible.mono`: with more keys, or deeper.
* `ofBytes?_text`: the statement for a whole text.
-/

namespace SparkLedger.Json

open Reader

variable {rest : Input}

/-! ## Bytes in front -/

/-- A byte at which neither a blank nor the end of an array or object stands. -/
def Opens (b : UInt8) : Prop :=
  (b ≠ 0x20 ∧ b ≠ 0x09 ∧ b ≠ 0x0a ∧ b ≠ 0x0d) ∧ b ≠ 0x5d ∧ b ≠ 0x7d

theorem opens_of_mem {b : UInt8} (h : b ∈ [0x6e, 0x74, 0x66, 0x22, 0x5b, 0x7b]) : Opens b := by
  simp only [List.mem_cons, List.not_mem_nil, or_false] at h
  rcases h with rfl | rfl | rfl | rfl | rfl | rfl <;>
    exact ⟨⟨by decide, by decide, by decide, by decide⟩, by decide, by decide⟩

theorem skipBlanks_of_opens {b : UInt8} (h : Opens b) : skipBlanks (b :: rest) = b :: rest := by
  simp [skipBlanks, h.1]

theorem value_arr (fuel depth : Nat) {b : UInt8} (h : Opens b) :
    value (fuel + 1) depth (0x5b :: b :: rest) =
      (items fuel (depth + 1) [] (b :: rest)).map fun (xs, rest) =>
        (atDepth depth (.arr xs.reverse), rest) := by
  rw [value, show skipBlanks (0x5b :: b :: rest) = 0x5b :: b :: rest from rfl]
  simp only [skipBlanks_of_opens h]
  split
  · rename_i heq
    cases heq
    exact absurd rfl h.2.1
  · rfl

theorem value_obj (fuel depth : Nat) {b : UInt8} (h : Opens b) :
    value (fuel + 1) depth (0x7b :: b :: rest) =
      (Reader.members fuel (depth + 1) [] (b :: rest)).map fun (ms, rest) =>
        (atDepth depth (object ms.reverse), rest) := by
  rw [value, show skipBlanks (0x7b :: b :: rest) = 0x7b :: b :: rest from rfl]
  simp only [skipBlanks_of_opens h]
  split
  · rename_i heq
    cases heq
    exact absurd rfl h.2.2
  · rfl

/-- A byte at which a number starts. -/
def StartsNumber (b : UInt8) : Prop := b = 0x2d ∨ (digit? b).isSome

theorem StartsNumber.toNat {b : UInt8} (h : StartsNumber b) : 0x2d ≤ b.toNat ∧ b.toNat ≤ 0x39 := by
  rcases h with rfl | h
  · decide
  · unfold digit? at h
    split at h
    · rename_i hb
      have hlo := UInt8.le_iff_toNat_le.1 hb.1
      have hhi := UInt8.le_iff_toNat_le.1 hb.2
      exact ⟨Nat.le_trans (by decide) hlo, hhi⟩
    · cases h

theorem StartsNumber.ne {b : UInt8} (h : StartsNumber b) {c : UInt8}
    (hc : c.toNat < 0x2d ∨ 0x39 < c.toNat) : b ≠ c := by
  rintro rfl
  have hb := h.toNat
  omega

theorem StartsNumber.opens {b : UInt8} (h : StartsNumber b) : Opens b := by
  refine ⟨⟨h.ne ?_, h.ne ?_, h.ne ?_, h.ne ?_⟩, h.ne ?_, h.ne ?_⟩ <;> decide

theorem value_number (fuel depth : Nat) {b : UInt8} (h : StartsNumber b) :
    value (fuel + 1) depth (b :: rest) = number (b :: rest) := by
  rw [value, skipBlanks_of_opens h.opens]
  split
  case h_7 => rfl
  all_goals
    rename_i heq
    cases heq
    exact absurd rfl (h.ne (by decide))

theorem exists_encode_toString_eq (i : Int) :
    ∃ b bs, encode (toString i).toList = b :: bs ∧ StartsNumber b := by
  obtain ⟨b, bs, hbs, hb⟩ := exists_encode_toDigits_eq i.natAbs
  rw [encode_toString]
  split
  · exact ⟨b, bs, hbs, .inr hb⟩
  · exact ⟨_, _, rfl, .inl rfl⟩

/-! ## Keys -/

/-- Whether a key looks like a number, and is not printed as it is: a digit and a quote, say. -/
def blurs (k : String) : Bool :=
  startsAsNumber k && !(encode k.toList).isPrefixOf (encode (k.toList.flatMap escaped))

/-- A part as it is read under a printed key: marked, if the key blurs. -/
def marked (k : String) (x : Json) : Json := if blurs k then .disguised x else x

theorem underKey_encode (k : String) (rest : Input) (x : Json) :
    underKey (some k) (encode (k.toList.flatMap escaped) ++ rest) x = marked k x := by
  have hfront : (encode k.toList).isPrefixOf (encode (k.toList.flatMap escaped) ++ rest) =
      (encode k.toList).isPrefixOf (encode (k.toList.flatMap escaped)) := by
    rw [Bool.eq_iff_iff, List.isPrefixOf_iff_prefix, List.isPrefixOf_iff_prefix]
    constructor
    · exact fun h => List.prefix_of_prefix_length_le h (List.prefix_append ..) (length_encode_le _)
    · exact fun h => h.trans (List.prefix_append ..)
  rw [underKey, Option.any_some, toList_toUTF8, hfront, marked, blurs]

theorem marked_of_blurs_eq_false {k : String} (h : blurs k = false) (x : Json) :
    marked k x = x := by
  rw [marked, h]
  rfl

/-- A key without characters to escape is printed as it is. -/
theorem blurs_eq_false {k : String} (h : ∀ c ∈ k.toList, escaped c = [c]) : blurs k = false := by
  have hplain : k.toList.flatMap escaped = k.toList := by
    rw [List.flatMap_congr h]
    simp
  simp [blurs, hplain]

/-! ## Documents -/

mutual

/-- The document that a printed one reads as. -/
def reread : Json → Json
  | .arr xs => .arr (rereadItems xs)
  | .obj ms => .obj (rereadMembers ms)
  | j => j

/-- The items that printed ones read as. -/
def rereadItems : List Json → List Json
  | [] => []
  | x :: xs => reread x :: rereadItems xs

/-- The members that printed ones read as. -/
def rereadMembers : List (String × Json) → List (String × Json)
  | [] => []
  | (k, x) :: ms => (k, marked k (reread x)) :: rereadMembers ms

end

/-! ## Legible documents -/

/-- A document of integers of 64 bits, without floats and without parts that denote nothing, with
keys of a kind, and with at most so many arrays and objects inside one another. -/
def Legible (p : String → Prop) : Nat → Json → Prop
  | _, .null | _, .bool _ | _, .str _ => True
  | _, .int i => -9223372036854775808 ≤ i ∧ i < 18446744073709551616
  | n + 1, .arr xs => ∀ x ∈ xs, Legible p n x
  | n + 1, .obj ms => ∀ m ∈ ms, p m.1 ∧ Legible p n m.2
  | _, _ => False

variable {p q : String → Prop} {m n depth fuel : Nat} {j x : Json} {k : String} {xs : List Json}
  {ms : List (String × Json)}

@[simp] theorem legible_bool (b : Bool) : Legible p n (.bool b) := by
  cases n <;> trivial

@[simp] theorem legible_str (s : String) : Legible p n (.str s) := by
  cases n <;> trivial

theorem legible_int {lo hi : Int} (hlo : -9223372036854775808 ≤ lo)
    (hhi : hi < 18446744073709551616) (i : Ranged lo hi) : Legible p n (.int i.val) := by
  have hi : -9223372036854775808 ≤ i.val ∧ i.val < 18446744073709551616 :=
    ⟨Int.le_trans hlo i.lo_le, Int.lt_of_le_of_lt i.le_hi hhi⟩
  cases n <;> exact hi

@[simp] theorem legible_signed64 (i : Signed64) : Legible p n (.int i.val) :=
  legible_int (by decide) (by decide) i

@[simp] theorem legible_signed32 (i : Signed32) : Legible p n (.int i.val) :=
  legible_int (by decide) (by decide) i

theorem legible_arr : Legible p (n + 1) (.arr xs) ↔ ∀ x ∈ xs, Legible p n x :=
  Iff.rfl

theorem legible_obj :
    Legible p (n + 1) (.obj ms) ↔ ∀ m ∈ ms, p m.1 ∧ Legible p n m.2 :=
  Iff.rfl

theorem legible_ofPresent {ps : List (String × Option Json)}
    (h : ∀ e ∈ ps, p e.1 ∧ ∀ v ∈ e.2, Legible p n v) : Legible p (n + 1) (ofPresent ps) := by
  intro m hm
  obtain ⟨e, he, hm⟩ := List.mem_filterMap.1 hm
  obtain ⟨v, hv, rfl⟩ := Option.map_eq_some_iff.1 hm
  exact ⟨(h e he).1, (h e he).2 v hv⟩

theorem legible_ofMap {α : Type} {write : α → Json} {entries : SortedMap String α}
    (h : ∀ e ∈ entries.toList, p e.1 ∧ Legible p n (write e.2)) :
    Legible p (n + 1) (ofMap write entries) := by
  intro m hm
  obtain ⟨e, he, rfl⟩ := List.mem_map.1 hm
  exact h e he

theorem Legible.mono (hpq : ∀ k, p k → q k) (hmn : m ≤ n) (h : Legible p m j) : Legible q n j := by
  induction j using partsInduction generalizing m n with
  | null => cases n <;> trivial
  | bool b => exact legible_bool b
  | str s => exact legible_str s
  | int i => cases m <;> cases n <;> exact h
  | arr xs ih =>
    cases m with
    | zero => cases h
    | succ m =>
      obtain ⟨n, rfl⟩ : ∃ l, n = l + 1 := ⟨n - 1, by omega⟩
      exact fun x hx => ih x hx (by omega) (h x hx)
  | obj ms ih =>
    cases m with
    | zero => cases h
    | succ m =>
      obtain ⟨n, rfl⟩ : ∃ l, n = l + 1 := ⟨n - 1, by omega⟩
      exact fun e he => ⟨hpq _ (h e he).1, ih e he (by omega) (h e he).2⟩
  | _ => cases m <;> cases h

/-- A document starts with neither a blank nor an end. -/
theorem exists_encode_chars_eq (h : Legible p n j) :
    ∃ b bs, encode (chars j) = b :: bs ∧ Opens b := by
  cases j with
  | null => exact ⟨_, _, rfl, opens_of_mem (by simp)⟩
  | bool b => cases b <;> exact ⟨_, _, rfl, opens_of_mem (by simp)⟩
  | int i =>
    obtain ⟨b, bs, hbs, hb⟩ := exists_encode_toString_eq i
    exact ⟨b, bs, by rw [chars, hbs], hb.opens⟩
  | str s => exact ⟨_, _, by rw [chars, encode_quotedChars], opens_of_mem (by simp)⟩
  | arr xs =>
    cases xs with
    | nil => exact ⟨_, _, rfl, opens_of_mem (by simp)⟩
    | cons x xs => exact ⟨_, _, encode_chars_arr x xs, opens_of_mem (by simp)⟩
  | obj ms =>
    cases ms with
    | nil => exact ⟨_, _, rfl, opens_of_mem (by simp)⟩
    | cons m ms => exact ⟨_, _, encode_chars_obj m.1 m.2 ms, opens_of_mem (by simp)⟩
  | _ => cases n <;> cases h

/-! ## Containers -/

/-- What is printed of the document reads as it should, whatever stands behind it. -/
def RereadAt (depth : Nat) (j : Json) : Prop :=
  ∀ fuel rest, 2 * (encode (chars j)).length ≤ fuel → Stops rest →
    value fuel depth (encode (chars j) ++ rest) = some (reread j, rest)

/-- Only the calls that have fuel matter: two units for each byte are enough for one more. -/
theorem rereadAt_of_succ (h : Legible p n j)
    (hread : ∀ fuel rest, 2 * (encode (chars j)).length ≤ fuel + 1 → Stops rest →
      value (fuel + 1) depth (encode (chars j) ++ rest) = some (reread j, rest)) :
    RereadAt depth j := by
  intro fuel rest hfuel hrest
  obtain ⟨b, bs, hbs, -⟩ := exists_encode_chars_eq h
  cases fuel with
  | zero =>
    rw [hbs, List.length_cons] at hfuel
    omega
  | succ fuel => exact hread fuel rest hfuel hrest

theorem stops_of_mem {b : UInt8} (h : b ∈ [0x2c, 0x5d, 0x7d]) : Stops (b :: rest) := by
  simp only [List.mem_cons, List.not_mem_nil, or_false] at h
  rcases h with rfl | rfl | rfl <;> exact fun b hb => by cases hb; decide

/-- What is printed of the items of an array reads as these. -/
theorem items_encode (hx : RereadAt depth x) (hxs : ∀ y ∈ xs, RereadAt depth y) (done : List Json)
    (hfuel : 2 * ((encode (chars x)).length + (encode (itemsChars xs)).length) ≤ fuel) :
    items fuel depth done (encode (chars x) ++ (encode (itemsChars xs) ++ rest)) =
      some ((rereadItems (x :: xs)).reverse ++ done, rest) := by
  induction xs generalizing x done fuel with
  | nil =>
    have hend : encode (itemsChars []) ++ rest = 0x5d :: rest := rfl
    have hlength : (encode (itemsChars [])).length = 1 := rfl
    obtain ⟨fuel, rfl⟩ : ∃ f, fuel = f + 1 := ⟨fuel - 1, by omega⟩
    rw [hend, items, hx fuel _ (by omega) (stops_of_mem (by simp))]
    rfl
  | cons y ys ih =>
    obtain ⟨hy, hys⟩ := List.forall_mem_cons.1 hxs
    rw [encode_itemsChars_cons, List.length_cons, List.length_append] at hfuel
    obtain ⟨fuel, rfl⟩ : ∃ f, fuel = f + 1 := ⟨fuel - 1, by omega⟩
    rw [encode_itemsChars_cons, items, List.cons_append, List.append_assoc,
      hx fuel _ (by omega) (stops_of_mem (by simp))]
    refine (ih hy hys (reread x :: done) (by omega)).trans ?_
    simp [rereadItems]

/-- The members that were read of an object, all of whose keys denote strings. -/
def named (ms : List (String × Json)) : List (Option String × Json) :=
  ms.map fun m => (some m.1, m.2)

theorem object_named (ms : List (String × Json)) : object (named ms) = .obj ms := by
  have hkeys : ((named ms).mapM fun m => m.1.map (·, m.2)) = some ms := by
    induction ms with
    | nil => rfl
    | cons m ms ih =>
      rw [named] at ih ⊢
      simp [List.mapM_cons, ih]
  unfold object
  split
  · rename_i h
    cases hkeys.symm.trans h
    rfl
  · rename_i h
    cases hkeys.symm.trans h

/-- A member at the front of the text, with a comma or the end of the object behind it. -/
private theorem members_of_value {done : List (Option String × Json)} {behind : Input} {b : UInt8}
    (hv : value fuel depth behind = some (x, b :: rest)) (hb : b = 0x2c ∨ b = 0x7d) :
    Reader.members (fuel + 1) depth done (encode (quotedChars k) ++ 0x3a :: behind) =
      if b = 0x2c then
        Reader.members fuel depth ((some k, marked k x) :: done) rest
      else some ((some k, marked k x) :: done, rest) := by
  rw [encode_quotedChars, List.cons_append, List.append_assoc, List.singleton_append,
    Reader.members]
  split
  · rename_i heq
    cases heq
    rw [string_quoted]
    dsimp only
    split
    · rename_i heq
      cases heq
      rw [hv]
      rcases hb with rfl | rfl
      · exact congrArg (fun y => Reader.members fuel depth ((some k, y) :: done) rest)
          (underKey_encode k _ x)
      · exact congrArg (fun y => some ((some k, y) :: done, rest)) (underKey_encode k _ x)
    · rename_i h
      exact absurd rfl (h behind)
  · rename_i h
    exact absurd rfl (h _)

/-- What is printed of the members of an object reads as these. -/
theorem members_encode (hx : RereadAt depth x) (hms : ∀ m ∈ ms, RereadAt depth m.2)
    (done : List (Option String × Json))
    (hfuel : 2 * ((encode (chars x)).length + (encode (membersChars ms)).length) ≤ fuel) :
    Reader.members fuel depth done (encode (quotedChars k) ++
        0x3a :: (encode (chars x) ++ (encode (membersChars ms) ++ rest))) =
      some ((named (rereadMembers ((k, x) :: ms))).reverse ++ done, rest) := by
  induction ms generalizing k x done fuel with
  | nil =>
    have hend : encode (membersChars []) ++ rest = 0x7d :: rest := rfl
    have hlength : (encode (membersChars [])).length = 1 := rfl
    obtain ⟨fuel, rfl⟩ : ∃ f, fuel = f + 1 := ⟨fuel - 1, by omega⟩
    rw [hend, members_of_value (hx fuel _ (by omega) (stops_of_mem (by simp))) (.inr rfl)]
    rfl
  | cons m ms ih =>
    obtain ⟨l, y⟩ := m
    obtain ⟨hy, hms⟩ := List.forall_mem_cons.1 hms
    have hy : RereadAt depth y := hy
    rw [encode_membersChars_cons, List.length_cons, List.length_append, List.length_cons,
      List.length_append] at hfuel
    obtain ⟨fuel, rfl⟩ : ∃ f, fuel = f + 1 := ⟨fuel - 1, by omega⟩
    rw [encode_membersChars_cons, List.cons_append, List.append_assoc, List.cons_append,
      List.append_assoc,
      members_of_value (hx fuel _ (by omega) (stops_of_mem (by simp))) (.inl rfl), if_pos rfl]
    refine (ih hy hms _ (by omega)).trans ?_
    simp [rereadMembers, named]

private theorem atDepth_of_lt (h : depth < maxDepth) (j : Json) : atDepth depth j = j := if_pos h

theorem rereadAt_arr (h : Legible p n (.arr xs)) (hdepth : depth < maxDepth)
    (hxs : ∀ x ∈ xs, RereadAt (depth + 1) x) : RereadAt depth (.arr xs) := by
  refine rereadAt_of_succ h fun fuel rest hfuel _ => ?_
  cases n with
  | zero => cases h
  | succ n =>
    cases xs with
    | nil => exact congrArg (fun j => some (j, rest)) (atDepth_of_lt hdepth (.arr []))
    | cons x xs =>
      obtain ⟨hx, hxs⟩ := List.forall_mem_cons.1 hxs
      obtain ⟨b, bs, hbs, hb⟩ := exists_encode_chars_eq (h x List.mem_cons_self)
      rw [encode_chars_arr, List.length_cons, List.length_append] at hfuel
      have hread : items fuel (depth + 1) []
          (encode (chars x) ++ (encode (itemsChars xs) ++ rest)) = _ :=
        items_encode hx hxs [] (by omega)
      rw [encode_chars_arr, List.cons_append, List.append_assoc]
      rw [hbs, List.cons_append] at hread ⊢
      rw [value_arr fuel depth hb, hread]
      simp [atDepth_of_lt hdepth, reread]

theorem rereadAt_obj (h : Legible p n (.obj ms)) (hdepth : depth < maxDepth)
    (hms : ∀ m ∈ ms, RereadAt (depth + 1) m.2) : RereadAt depth (.obj ms) := by
  refine rereadAt_of_succ h fun fuel rest hfuel _ => ?_
  cases ms with
  | nil => exact congrArg (fun j => some (j, rest)) (atDepth_of_lt hdepth (.obj []))
  | cons m ms =>
    obtain ⟨k, x⟩ := m
    obtain ⟨hx, hms⟩ := List.forall_mem_cons.1 hms
    have hx : RereadAt (depth + 1) x := hx
    rw [encode_chars_obj, List.length_cons, List.length_append, List.length_cons,
      List.length_append] at hfuel
    have hread : Reader.members fuel (depth + 1) [] (encode (quotedChars k) ++
        0x3a :: (encode (chars x) ++ (encode (membersChars ms) ++ rest))) = _ :=
      members_encode hx hms [] (by omega)
    rw [encode_chars_obj, List.cons_append, List.append_assoc, List.cons_append, List.append_assoc]
    rw [encode_quotedChars, List.cons_append] at hread ⊢
    rw [value_obj fuel depth (opens_of_mem (by simp)), hread]
    simp [atDepth_of_lt hdepth, reread, object_named]

/-! ## Whole documents -/

theorem rereadAt_of_legible (h : Legible p n j) (hdepth : depth + n ≤ maxDepth) :
    RereadAt depth j := by
  induction j using partsInduction generalizing n depth with
  | null => exact rereadAt_of_succ h fun _ _ _ _ => rfl
  | bool b => cases b <;> exact rereadAt_of_succ h fun _ _ _ _ => rfl
  | int i =>
    refine rereadAt_of_succ h fun fuel rest _ hrest => ?_
    obtain ⟨hlo, hhi⟩ : -9223372036854775808 ≤ i ∧ i < 18446744073709551616 := by
      cases n <;> exact h
    obtain ⟨b, bs, hbs, hb⟩ := exists_encode_toString_eq i
    have hnumber := number_encode hlo hhi hrest
    rw [hbs] at hnumber
    rw [chars, hbs]
    exact (value_number fuel depth hb).trans hnumber
  | str s =>
    refine rereadAt_of_succ h fun fuel rest _ _ => ?_
    rw [chars, encode_quotedChars, List.cons_append, List.append_assoc]
    exact congrArg (Option.map fun read => (read.1.elim Json.unreadable .str, read.2))
      (string_quoted s)
  | arr xs ih =>
    cases n with
    | zero => cases h
    | succ n => exact rereadAt_arr h (by omega) fun x hx => ih x hx (h x hx) (by omega)
  | obj ms ih =>
    cases n with
    | zero => cases h
    | succ n => exact rereadAt_obj h (by omega) fun m hm => ih m hm (h m hm).2 (by omega)
  | _ => cases n <;> cases h

/-- A printed document reads as `reread` says. -/
theorem ofBytes?_text (h : Legible p n j) (hn : n ≤ maxDepth) :
    ofBytes? j.text.toUTF8 = some (reread j) := by
  have hat : RereadAt 0 j := rereadAt_of_legible h (by omega)
  have hvalue := hat (2 * (encode (chars j)).length + 2) [] (by omega) (by simp [Stops])
  rw [List.append_nil] at hvalue
  simp only [ofBytes?, toList_toUTF8_text, hvalue]
  rfl

/-! ## What is read of a printed document -/

private theorem rereadItems_eq (xs : List Json) : rereadItems xs = xs.map reread := by
  induction xs with
  | nil => rfl
  | cons x xs ih => rw [rereadItems, ih, List.map_cons]

private theorem rereadMembers_eq (ms : List (String × Json)) :
    rereadMembers ms = ms.map fun m => (m.1, marked m.1 (reread m.2)) := by
  induction ms with
  | nil => rfl
  | cons m ms ih => rw [rereadMembers, ih, List.map_cons]

/-- Where no key blurs, a printed document reads as itself. -/
theorem reread_of_legible (h : Legible (blurs · = false) n j) : reread j = j := by
  induction j using partsInduction generalizing n with
  | arr xs ih =>
    cases n with
    | zero => cases h
    | succ n =>
      rw [reread, rereadItems_eq]
      have hxs : ∀ x ∈ xs, reread x = id x := fun x hx => ih x hx (h x hx)
      rw [List.map_congr_left hxs, List.map_id]
  | obj ms ih =>
    cases n with
    | zero => cases h
    | succ n =>
      rw [reread, rereadMembers_eq]
      have hms : ∀ m ∈ ms, (m.1, marked m.1 (reread m.2)) = id m := fun m hm => by
        rw [ih m hm (h m hm).2, marked_of_blurs_eq_false (h m hm).1]
        rfl
      rw [List.map_congr_left hms, List.map_id]
  | _ => simp [reread]

theorem find?_rereadMembers (hk : blurs k = false) (ms : List (String × Json)) :
    Assoc.find? k (rereadMembers ms) = (Assoc.find? k ms).map reread := by
  rw [rereadMembers_eq]
  refine (Assoc.find?_map (fun k x => marked k (reread x)) k ms).trans ?_
  rw [funext fun x => marked_of_blurs_eq_false hk (reread x)]

theorem distinct_rereadMembers (h : Assoc.Distinct ms) : Assoc.Distinct (rereadMembers ms) := by
  rw [rereadMembers_eq]
  exact (Assoc.distinct_map fun k x => marked k (reread x)).2 h

end SparkLedger.Json

import SparkLedger.Json.Printer

/-!
# Printed documents as characters and bytes

The printer puts its text onto what is written so far. Here the text stands by itself: as a list of
characters, put together as the document is, and as the list of its bytes, which is what a reader
sees.

* `chars`: the characters of a document. `toList_write`: the printer writes these.
* `encode`: the bytes of characters. `toList_toUTF8`, `toList_toUTF8_text`: of a string, and of a
  printed document.
-/

namespace SparkLedger.Json

/-! ## Characters -/

/-- The characters of a string in quotes. -/
def quotedChars (s : String) : List Char := '"' :: (s.toList.flatMap escaped ++ ['"'])

mutual

/-- The characters of a document. -/
def chars : Json → List Char
  | .null | .unreadable => ['n', 'u', 'l', 'l']
  | .bool true => ['t', 'r', 'u', 'e']
  | .bool false => ['f', 'a', 'l', 's', 'e']
  | .int i => (toString i).toList
  | .float f => (f.text .standard).toList
  | .str s => quotedChars s
  | .arr [] => ['[', ']']
  | .arr (x :: xs) => '[' :: (chars x ++ itemsChars xs)
  | .obj [] => ['\x7b', '\x7d']
  | .obj ((k, x) :: ms) => '\x7b' :: (quotedChars k ++ ':' :: (chars x ++ membersChars ms))
  | .disguised j => chars j

/-- The characters of the further items of an array, and its end. -/
def itemsChars : List Json → List Char
  | [] => [']']
  | x :: xs => ',' :: (chars x ++ itemsChars xs)

/-- The characters of the further members of an object, and its end. -/
def membersChars : List (String × Json) → List Char
  | [] => ['\x7d']
  | (k, x) :: ms => ',' :: (quotedChars k ++ ':' :: (chars x ++ membersChars ms))

end

private theorem toList_foldl_push (cs : List Char) (written : String) :
    (cs.foldl String.push written).toList = written.toList ++ cs := by
  induction cs generalizing written with
  | nil => simp
  | cons c cs ih => simp [ih]

private theorem toList_foldl_escaped (cs : List Char) (written : String) :
    (cs.foldl (fun t c => (escaped c).foldl String.push t) written).toList =
      written.toList ++ cs.flatMap escaped := by
  induction cs generalizing written with
  | nil => simp
  | cons c cs ih => simp [ih, toList_foldl_push]

theorem toList_writeString (written s : String) :
    (writeString written s).toList = written.toList ++ quotedChars s := by
  simp [writeString, quotedChars, toList_foldl_escaped]

mutual

theorem toList_write (written : String) (j : Json) :
    (write written j).toList = written.toList ++ chars j := by
  match j with
  | .null => simp [write, chars]
  | .bool true => simp [write, chars]
  | .bool false => simp [write, chars]
  | .int i => simp [write, chars]
  | .float f => simp [write, chars]
  | .str s => rw [write, chars, toList_writeString]
  | .arr [] => simp [write, chars]
  | .arr (x :: xs) =>
    rw [write, chars, toList_writeItems, toList_write]
    simp
  | .obj [] => simp [write, chars]
  | .obj ((k, x) :: ms) =>
    rw [write, chars, toList_writeMembers, toList_write]
    simp [toList_writeString]
  | .unreadable => simp [write, chars]
  | .disguised j => rw [write, chars, toList_write]

theorem toList_writeItems (written : String) (xs : List Json) :
    ((writeItems written xs).push ']').toList = written.toList ++ itemsChars xs := by
  match xs with
  | [] => simp [writeItems, itemsChars]
  | x :: xs =>
    rw [writeItems, itemsChars, toList_writeItems, toList_write]
    simp

theorem toList_writeMembers (written : String) (ms : List (String × Json)) :
    ((writeMembers written ms).push '\x7d').toList = written.toList ++ membersChars ms := by
  match ms with
  | [] => simp [writeMembers, membersChars]
  | (k, x) :: ms =>
    rw [writeMembers, membersChars, toList_writeMembers, toList_write]
    simp [toList_writeString]

end

/-! ## Bytes -/

/-- The bytes of characters. -/
def encode (cs : List Char) : List UInt8 := cs.flatMap String.utf8EncodeChar

@[simp] theorem encode_nil : encode [] = [] := rfl

theorem encode_cons (c : Char) (cs : List Char) :
    encode (c :: cs) = String.utf8EncodeChar c ++ encode cs := by
  simp [encode]

theorem encode_append (cs ds : List Char) : encode (cs ++ ds) = encode cs ++ encode ds := by
  simp [encode]

private theorem toList_loop (bytes : ByteArray) (i : Nat) (read : List UInt8) :
    ByteArray.toList.loop bytes i read = read.reverse ++ bytes.data.toList.drop i := by
  induction hn : bytes.size - i generalizing i read with
  | zero =>
    rw [ByteArray.toList.loop, if_neg (by omega), List.drop_of_length_le, List.append_nil]
    simpa using (by omega : bytes.size ≤ i)
  | succ n ih =>
    have hi : i < bytes.data.toList.length := by simp; omega
    have hget : bytes.get! i = bytes.data.toList[i] := by
      simpa [ByteArray.get!] using getElem!_pos bytes.data i _
    rw [ByteArray.toList.loop, if_pos (by omega), ih _ _ (by omega), List.drop_eq_getElem_cons hi,
      List.reverse_cons, List.append_assoc, List.singleton_append, hget]

private theorem toList_eq (bytes : ByteArray) : bytes.toList = bytes.data.toList := by
  rw [ByteArray.toList, toList_loop]
  simp

theorem toList_toUTF8 (s : String) : s.toUTF8.toList = encode s.toList := by
  rw [String.toUTF8_eq_toByteArray, ← String.utf8Encode_toList, toList_eq, List.utf8Encode]
  simp [encode]

theorem toList_toUTF8_text (j : Json) : j.text.toUTF8.toList = encode (chars j) := by
  rw [toList_toUTF8, text, toList_write]
  simp

/-! ## Parts of a printed document -/

theorem encode_quotedChars (s : String) :
    encode (quotedChars s) = 0x22 :: (encode (s.toList.flatMap escaped) ++ [0x22]) := by
  rw [quotedChars, encode_cons, encode_append]
  rfl

theorem encode_chars_arr (x : Json) (xs : List Json) :
    encode (chars (.arr (x :: xs))) = 0x5b :: (encode (chars x) ++ encode (itemsChars xs)) := by
  rw [chars, encode_cons, encode_append]
  rfl

theorem encode_itemsChars_cons (x : Json) (xs : List Json) :
    encode (itemsChars (x :: xs)) = 0x2c :: (encode (chars x) ++ encode (itemsChars xs)) := by
  rw [itemsChars, encode_cons, encode_append]
  rfl

theorem encode_chars_obj (k : String) (x : Json) (ms : List (String × Json)) :
    encode (chars (.obj ((k, x) :: ms))) = 0x7b :: (encode (quotedChars k) ++
      0x3a :: (encode (chars x) ++ encode (membersChars ms))) := by
  rw [chars, encode_cons, encode_append, encode_cons, encode_append]
  rfl

theorem encode_membersChars_cons (k : String) (x : Json) (ms : List (String × Json)) :
    encode (membersChars ((k, x) :: ms)) = 0x2c :: (encode (quotedChars k) ++
      0x3a :: (encode (chars x) ++ encode (membersChars ms))) := by
  rw [membersChars, encode_cons, encode_append, encode_cons, encode_append]
  rfl

end SparkLedger.Json

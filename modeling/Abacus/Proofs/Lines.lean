import Abacus.Repl

/-!
# The lines of an input

The interactive loop cuts its input into lines as bytes and decodes each line by itself. Of an input
that is a text these are the lines of the text: a newline or a carriage return is no part of the bytes
of another character, so no character is cut.
-/

namespace Abacus.Repl

/-- The lines of a text. A carriage return before a newline belongs to the newline. What follows the
last newline is a line unless it is empty. -/
inductive Lines : List Char → List String → Prop
  | nil : Lines [] []
  | last {line : List Char} : line ≠ [] → '\n' ∉ line → Lines line [String.ofList line]
  | newline {line rest : List Char} {ls : List String} :
      '\n' ∉ line → line.getLast? ≠ some '\r' → Lines rest ls →
      Lines (line ++ '\n' :: rest) (String.ofList line :: ls)
  | returned {line rest : List Char} {ls : List String} :
      '\n' ∉ line → Lines rest ls → Lines (line ++ '\r' :: '\n' :: rest) (String.ofList line :: ls)

theorem exists_lines (text : List Char) : ∃ ls, Lines text ls := by
  induction hk : text.length using Nat.strongRecOn generalizing text with
  | ind k ih =>
    by_cases hn : '\n' ∈ text
    · obtain ⟨line, rest, rfl, hline⟩ := List.eq_append_cons_of_mem hn
      obtain ⟨ls, hls⟩ := ih rest.length (by simp [← hk]; omega) rest rfl
      by_cases hr : line.getLast? = some '\r'
      · obtain ⟨start, rfl⟩ := List.getLast?_eq_some_iff.mp hr
        have hstart : '\n' ∉ start := fun h => hline (List.mem_append_left _ h)
        exact ⟨_, by simpa using Lines.returned hstart hls⟩
      · exact ⟨_, .newline hline hr hls⟩
    · by_cases hnil : text = []
      · exact ⟨[], hnil ▸ .nil⟩
      · exact ⟨_, .last hnil hn⟩

def bytes (text : List Char) : List UInt8 := text.flatMap String.utf8EncodeChar

theorem bytes_append (a b : List Char) : bytes (a ++ b) = bytes a ++ bytes b := List.flatMap_append

theorem bytes_ne_nil {text : List Char} (h : text ≠ []) : bytes text ≠ [] := by
  obtain ⟨c, cs, rfl⟩ := List.exists_cons_of_ne_nil h
  have hc : String.utf8EncodeChar c ≠ [] := by
    unfold String.utf8EncodeChar
    grind
  simp [bytes, hc]

theorem data_toByteArray (bs : List UInt8) : bs.toByteArray.data.toList = bs := by
  induction bs with
  | nil => rfl
  | cons b bs ih =>
    rw [← List.singleton_append, List.toByteArray_append, ByteArray.toList_data_append, ih]
    rfl

theorem data_toUTF8 (text : String) : text.toUTF8.data.toList = bytes text.toList := by
  obtain ⟨cs, rfl⟩ : ∃ cs, text = String.ofList cs := ⟨text.toList, String.ofList_toList.symm⟩
  rw [String.toUTF8_eq_toByteArray, String.toByteArray_ofList, String.toList_ofList, List.utf8Encode,
    data_toByteArray, bytes]

theorem decodeLine_bytes (line : List Char) : decodeLine (bytes line) = some (String.ofList line) := by
  have hvalid : (bytes line).toByteArray.IsValidUTF8 := ByteArray.isValidUTF8_utf8Encode (l := line)
  rw [decodeLine, String.fromUTF8?, dif_pos hvalid]
  rfl

theorem utf8EncodeChar_short {c : Char} (hc : c.toNat < 128) :
    String.utf8EncodeChar c = [UInt8.ofNat c.toNat] :=
  if_pos (Nat.le_of_lt_succ hc)

theorem high_toNat {m k : Nat} (hk : 128 ≤ k) (hm : m + k < 256) :
    128 ≤ (UInt8.ofNat (m + k)).toNat := by
  rw [UInt8.toNat_ofNat']
  omega

/-- The bytes of a longer character have their highest bit set. -/
theorem utf8EncodeChar_long {c : Char} (hc : ¬ c.toNat < 128) :
    ∀ b ∈ String.utf8EncodeChar c, 128 ≤ b.toNat := by
  have hshort : ¬ c.val.toNat ≤ 127 := fun h => hc (Nat.lt_succ_of_le h)
  rw [String.utf8EncodeChar, if_neg hshort]
  split
  · simp only [List.forall_mem_cons]
    exact ⟨high_toNat (by omega) (by omega), high_toNat (by omega) (by omega), by simp⟩
  split
  · simp only [List.forall_mem_cons]
    exact ⟨high_toNat (by omega) (by omega), high_toNat (by omega) (by omega),
      high_toNat (by omega) (by omega), by simp⟩
  · simp only [List.forall_mem_cons]
    exact ⟨high_toNat (by omega) (by omega), high_toNat (by omega) (by omega),
      high_toNat (by omega) (by omega), high_toNat (by omega) (by omega), by simp⟩

theorem mem_bytes {text : List Char} {c : Char} (hc : c.toNat < 128) :
    UInt8.ofNat c.toNat ∈ bytes text ↔ c ∈ text := by
  have hbyte : (UInt8.ofNat c.toNat).toNat = c.toNat := by
    rw [UInt8.toNat_ofNat']
    omega
  rw [bytes, List.mem_flatMap]
  constructor
  · rintro ⟨d, hd, hmem⟩
    by_cases hshort : d.toNat < 128
    · rw [utf8EncodeChar_short hshort, List.mem_singleton] at hmem
      have hnat : c.toNat = d.toNat := by
        rw [← hbyte, hmem, UInt8.toNat_ofNat']
        omega
      exact (Char.toNat_inj.mp hnat) ▸ hd
    · have := utf8EncodeChar_long hshort _ hmem
      omega
  · intro h
    exact ⟨c, h, by simp [utf8EncodeChar_short hc]⟩

theorem ten_not_mem {text : List Char} (h : '\n' ∉ text) : 10 ∉ bytes text :=
  mt (mem_bytes (c := '\n') (by decide)).mp h

theorem splitLines_append {bs : List UInt8} (h : 10 ∉ bs) (line rest : List UInt8) :
    splitLines line (bs ++ rest) = splitLines (bs.reverse ++ line) rest := by
  induction bs generalizing line with
  | nil => rfl
  | cons b bs ih =>
    obtain ⟨hb, hbs⟩ := not_or.mp (mt List.mem_cons.mpr h)
    rw [List.cons_append, splitLines, if_neg (Ne.symm hb), ih hbs]
    simp

theorem splitLines_newline {bs : List UInt8} (h : 10 ∉ bs) (rest : List UInt8) :
    splitLines [] (bs ++ 10 :: rest) = endLine bs.reverse :: splitLines [] rest := by
  rw [splitLines_append h, splitLines, if_pos rfl, List.append_nil]

theorem endLine_of_getLast? {bs : List UInt8} (h : bs.getLast? ≠ some 13) :
    endLine bs.reverse = bs := by
  rw [← List.head?_reverse] at h
  generalize hr : bs.reverse = rs at h
  obtain rfl : bs = rs.reverse := by simp [← hr]
  unfold endLine
  split
  · exact absurd rfl h
  · rfl

theorem endLine_return (bs : List UInt8) : endLine (bs ++ [13]).reverse = bs := by
  simp [endLine]

theorem getLast?_bytes {line : List Char} (h : line.getLast? ≠ some '\r') :
    (bytes line).getLast? ≠ some 13 := by
  rcases List.eq_nil_or_concat line with rfl | ⟨start, c, rfl⟩
  · simp [bytes]
  · have hc : '\r' ∉ [c] := by
      rintro hmem
      rw [List.mem_singleton.mp hmem] at h
      simp at h
    have hlast : 13 ∉ bytes [c] := mt (mem_bytes (c := '\r') (by decide)).mp hc
    have hlast? := List.getLast?_eq_some_getLast (bytes_ne_nil (List.cons_ne_nil c []))
    rw [List.concat_eq_append, bytes_append, List.getLast?_append, hlast?, Option.some_or]
    intro he
    exact hlast (List.mem_of_getLast? (hlast?.trans he))

theorem decoded_lines {text : List Char} {ls : List String} (h : Lines text ls) :
    (splitLines [] (bytes text)).map decodeLine = ls.map some := by
  induction h with
  | nil => rfl
  | @last line hne hn =>
    have hone : splitLines [] (bytes line) = [bytes line] := by
      rw [← List.append_nil (bytes line), splitLines_append (ten_not_mem hn), splitLines]
      simp [bytes_ne_nil hne]
    rw [hone, List.map_singleton, decodeLine_bytes, List.map_singleton]
  | @newline line rest ls hn hr _ ih =>
    rw [bytes_append, show bytes ('\n' :: rest) = 10 :: bytes rest from rfl,
      splitLines_newline (ten_not_mem hn), endLine_of_getLast? (getLast?_bytes hr), List.map_cons, ih,
      decodeLine_bytes, List.map_cons]
  | @returned line rest ls hn _ ih =>
    rw [bytes_append, show bytes ('\r' :: '\n' :: rest) = [13] ++ 10 :: bytes rest from rfl,
      ← List.append_assoc, splitLines_newline, endLine_return, List.map_cons, ih, decodeLine_bytes,
      List.map_cons]
    simp [ten_not_mem hn]

end Abacus.Repl

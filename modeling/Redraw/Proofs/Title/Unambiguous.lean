import Redraw.Proofs.Title

/-!
# The text of a title tells which one it is

A backslash is written as itself and also begins the text of every byte that does not show. So the text of a byte alone does
not tell where it ends, and the texts of two lists of bytes may be the same. But then one of them has four bytes where the
other has one (`exists_of_flatMap_written_eq`), which does not happen between lists of four bytes
(`flatMap_written_injective`). Titles have four bytes, so different titles have different texts
(`text_unambiguous`).
-/

namespace Redraw.Title

/-! ## Texts of bytes -/

/-- The characters that a byte is written as. -/
def written (b : UInt8) : List Char :=
  if isGraphic b then [character b]
  else ['\\', 'x', Nat.digitChar (b.toNat / 16), Nat.digitChar (b.toNat % 16)]

theorem toList_hexDigits_two {n : Nat} (lt : n < 256) :
    (Text.hexDigits 2 n).toList = [Nat.digitChar (n / 16), Nat.digitChar (n % 16)] := by
  rw [Text.hexDigits, String.toList_append, String.toList_ofList, String.toList_ofList, String.length_ofList]
  rcases Nat.lt_or_ge n 16 with small | large
  · rw [Nat.toDigits_of_lt_base small, Nat.div_eq_of_lt small, Nat.mod_eq_of_lt small]
    rfl
  · rw [Nat.toDigits_of_base_le (by decide) large, Nat.toDigits_of_lt_base (by omega)]
    rfl

theorem toList_byteText (b : UInt8) : (byteText b).toList = written b := by
  unfold byteText written
  split
  · rw [Char.toString_eq_singleton, String.toList_singleton, character]
  · rw [String.toList_append, toList_hexDigits_two b.toNat_lt]
    rfl

theorem toList_text_eq_flatMap (t : Title) : t.text.toList = t.bytes.flatMap written := by
  rw [text, String.toList_join, List.flatMap_map]
  exact List.flatMap_congr fun b _ => toList_byteText b

theorem character_injective : Function.Injective character :=
  Function.LeftInverse.injective toUInt8_character

theorem digitChar_inj : ∀ m < 16, ∀ n < 16, Nat.digitChar m = Nat.digitChar n → m = n := by decide

theorem digitChar_ne_backslash : ∀ n < 16, Nat.digitChar n ≠ '\\' := by decide

theorem written_ne_nil (b : UInt8) : written b ≠ [] := by
  unfold written
  split <;> exact List.cons_ne_nil _ _

theorem flatMap_written_eq_nil {bs : List UInt8} (h : bs.flatMap written = []) : bs = [] := by
  cases bs with
  | nil => rfl
  | cons b bs =>
    rw [List.flatMap_cons, List.append_eq_nil_iff] at h
    exact absurd h.1 (written_ne_nil b)

/-- A character other than the backslash is the text of one byte. -/
theorem exists_of_flatMap_written_eq_cons {bs : List UInt8} {c : Char} {rest : List Char} (plain : c ≠ '\\')
    (h : bs.flatMap written = c :: rest) : ∃ b bs', bs = b :: bs' ∧ bs'.flatMap written = rest := by
  cases bs with
  | nil => cases h
  | cons b bs =>
    rw [List.flatMap_cons, written] at h
    split at h
    · exact ⟨b, bs, rfl, List.tail_eq_of_cons_eq h⟩
    · exact absurd (List.head_eq_of_cons_eq h).symm plain

/-- Where one text begins with a byte that shows and the other with one that does not, the first one goes on with the
characters of the second one's escape. -/
theorem exists_of_flatMap_written_eq {a b : UInt8} {as bs : List UInt8} (shown : isGraphic a = true)
    (hidden : ¬isGraphic b = true) (same : (a :: as).flatMap written = (b :: bs).flatMap written) :
    ∃ rest : List UInt8, as.length = rest.length + 3 ∧ rest.flatMap written = bs.flatMap written := by
  have := b.toNat_lt
  have upper := digitChar_ne_backslash (b.toNat / 16) (by omega)
  have lower := digitChar_ne_backslash (b.toNat % 16) (by omega)
  rw [List.flatMap_cons, List.flatMap_cons, written, if_pos shown, written, if_neg hidden] at same
  simp only [List.cons_append, List.nil_append] at same
  obtain ⟨_, _, rfl, digits⟩ := exists_of_flatMap_written_eq_cons (by decide) (List.tail_eq_of_cons_eq same)
  obtain ⟨_, _, rfl, digit⟩ := exists_of_flatMap_written_eq_cons upper digits
  obtain ⟨_, rest, rfl, others⟩ := exists_of_flatMap_written_eq_cons lower digit
  exact ⟨rest, rfl, others⟩

/-- Lists of the same length, up to four bytes, do not begin so differently. -/
theorem isGraphic_of_flatMap_written_eq {a b : UInt8} {as bs : List UInt8} (length : as.length = bs.length)
    (short : as.length < 4) (same : (a :: as).flatMap written = (b :: bs).flatMap written)
    (shown : isGraphic a = true) : isGraphic b = true := by
  by_contra hidden
  obtain ⟨rest, longer, same⟩ := exists_of_flatMap_written_eq shown hidden same
  obtain rfl : rest = [] := List.eq_nil_of_length_eq_zero (by omega)
  obtain rfl : bs = [] := flatMap_written_eq_nil same.symm
  rw [length] at longer
  cases longer

/-- Lists of four bytes, and shorter ones of the same length, are told apart by their texts. -/
theorem flatMap_written_injective {as bs : List UInt8} (length : as.length = bs.length) (short : as.length ≤ 4)
    (same : as.flatMap written = bs.flatMap written) : as = bs := by
  induction as generalizing bs with
  | nil => exact (List.eq_nil_of_length_eq_zero length.symm).symm
  | cons a as ih =>
    obtain ⟨b, bs, rfl⟩ := List.exists_cons_of_length_eq_add_one length.symm
    have length : as.length = bs.length := Nat.succ.inj length
    -- Two bytes that both show, or both do not, have texts of one length, and what follows is compared on its own.
    have alike : isGraphic a = true ↔ isGraphic b = true :=
      ⟨isGraphic_of_flatMap_written_eq length short same,
        isGraphic_of_flatMap_written_eq length.symm (length ▸ short) same.symm⟩
    have := a.toNat_lt
    have := b.toNat_lt
    rw [List.flatMap_cons, List.flatMap_cons] at same
    by_cases shown : isGraphic a = true
    · rw [written, written, if_pos shown, if_pos (alike.1 shown)] at same
      obtain ⟨first, others⟩ := List.cons.inj same
      rw [character_injective first, ih length (Nat.le_of_succ_le short) others]
    · rw [written, written, if_neg shown, if_neg (mt alike.2 shown)] at same
      simp only [List.cons_append, List.nil_append, List.cons.injEq, true_and] at same
      obtain ⟨upper, lower, others⟩ := same
      have upper := digitChar_inj _ (by omega) _ (by omega) upper
      have lower := digitChar_inj _ (by omega) _ (by omega) lower
      rw [ih length (Nat.le_of_succ_le short) others, UInt8.toNat_inj.1 (by omega : a.toNat = b.toNat)]

-- Of five bytes, an escape after a backslash and one before it have the same text.
example : [0x5C, 0x78, 0x30, 0x30, 0x01].flatMap written = [0x00, 0x5C, 0x78, 0x30, 0x31].flatMap written := by decide

theorem text_injective : Function.Injective text := by
  intro t u same
  have chars : t.bytes.flatMap written = u.bytes.flatMap written := by
    rw [← toList_text_eq_flatMap, same, toList_text_eq_flatMap]
  exact bytes_injective (flatMap_written_injective rfl (Nat.le_refl 4) chars)

/-! ## Bytes of texts -/

theorem toList_data_toUTF8 (s : String) : s.toUTF8.data.toList = s.toList.flatMap String.utf8EncodeChar := by
  rw [String.toUTF8, ← String.utf8Encode_toList, List.utf8Encode, List.data_toByteArray]

/-- A character of several bytes ends with one that has its highest bit set. -/
theorem continuation_mem {c : Char} (long : c.utf8Size ≠ 1) :
    (c.val.toUInt8 &&& 0x3F ||| 0x80) ∈ String.utf8EncodeChar c := by
  rcases c.utf8Size_eq with one | two | three | four
  · exact absurd one long
  · simp [String.utf8EncodeChar_eq_cons_cons two]
  · simp [String.utf8EncodeChar_eq_cons_cons_cons three]
  · simp [String.utf8EncodeChar_eq_cons_cons_cons_cons four]

theorem le_toNat_continuation (x : UInt8) : 0x80 ≤ (x ||| 0x80).toNat := by
  rw [UInt8.toNat_or]
  exact Nat.right_le_or

theorem isAlphanumeric_lt {b : UInt8} (h : isAlphanumeric b = true) : b.toNat < 0x80 := by
  rw [isAlphanumeric_iff] at h
  omega

/-- A character that is encoded with letters and digits is one of them, and is encoded as its own code. -/
theorem utf8EncodeChar_of_isAlphanumeric {c : Char} (h : ∀ b ∈ String.utf8EncodeChar c, isAlphanumeric b = true) :
    c.toNat < 2 ^ 8 ∧ String.utf8EncodeChar c = [c.toUInt8] := by
  have one : c.utf8Size = 1 := by
    by_contra long
    have low := isAlphanumeric_lt (h _ (continuation_mem long))
    have high := le_toNat_continuation (c.val.toUInt8 &&& 0x3F)
    omega
  have small := Char.utf8Size_eq_one_iff.1 one
  rw [UInt32.le_iff_toNat_le, Char.toNat_val] at small
  exact ⟨Nat.lt_of_le_of_lt small (by decide), String.utf8EncodeChar_eq_singleton one⟩

theorem eq_map_character {cs : List Char} (h : ∀ b ∈ cs.flatMap String.utf8EncodeChar, isAlphanumeric b = true) :
    cs = (cs.flatMap String.utf8EncodeChar).map character := by
  induction cs with
  | nil => rfl
  | cons c cs ih =>
    rw [List.flatMap_cons, List.forall_mem_append] at h
    obtain ⟨small, encoded⟩ := utf8EncodeChar_of_isAlphanumeric h.1
    rw [List.flatMap_cons, encoded, List.singleton_append, List.map_cons, character_toUInt8 small, ← ih h.2]

theorem utf8EncodeChar_character {b : UInt8} (h : isAlphanumeric b = true) :
    String.utf8EncodeChar (character b) = [b] := by
  have small : (character b).utf8Size = 1 := by
    rw [Char.utf8Size_eq_one_iff, UInt32.le_iff_toNat_le, Char.toNat_val, toNat_character]
    exact Nat.le_of_lt_succ (isAlphanumeric_lt h)
  rw [String.utf8EncodeChar_eq_singleton small]
  exact congrArg (fun b => [b]) (toUInt8_character b)

/-- What is read is told by the bytes of the text: they are those of the title, which is a code. -/
theorem parse_eq_ok_iff_toUTF8 {s : String} {t : Title} :
    parse s = .ok t ↔ t.IsCode ∧ s.toUTF8.data.toList = t.bytes := by
  rw [toList_data_toUTF8]
  constructor
  · intro h
    obtain ⟨code, chars⟩ := toList_of_parse h
    rw [chars, List.flatMap_map, List.flatMap_congr fun b mem => utf8EncodeChar_character (code b mem)]
    exact ⟨code, List.flatMap_singleton' t.bytes⟩
  · rintro ⟨code, bytes⟩
    have chars : s.toList = (s.toList.flatMap String.utf8EncodeChar).map character :=
      eq_map_character fun b mem => code b (bytes ▸ mem)
    exact parse_of_toList code (bytes ▸ chars)

theorem exists_parse_eq_ok_iff {s : String} :
    (∃ t, parse s = .ok t) ↔ s.toUTF8.size = 4 ∧ ∀ b ∈ s.toUTF8.data, isAlphanumeric b = true := by
  simp only [parse_eq_ok_iff_toUTF8, ← ByteArray.size_data, ← Array.length_toList, ← Array.mem_toList_iff]
  constructor
  · rintro ⟨t, code, bytes⟩
    rw [bytes]
    exact ⟨rfl, code⟩
  · rintro ⟨four, code⟩
    generalize s.toUTF8.data.toList = bytes at four code
    match bytes with
    | [a, b, c, d] => exact ⟨ofBytes a b c d, by rwa [IsCode, bytes_ofBytes], (bytes_ofBytes a b c d).symm⟩

theorem eq_invalidTitleCode {s : String} {e : Error} (h : parse s = .error e) : e = .invalidTitleCode s := by
  unfold parse at h
  split at h
  · split at h
    · cases h
    · exact (Except.error.inj h).symm
  · exact (Except.error.inj h).symm

/-! ## Titles and texts -/

/-- **The text of a title is an unambiguous code.** A text is read exactly if it is encoded in four bytes that are codes of
ASCII letters or digits, and the title that is read has that text; any other text is given back with the error. A title is
written byte by byte, a visible character as itself, the backslash too, and any other byte as `\x` with two digits. Its
text is read exactly if its four bytes are codes of letters or digits, and then as that title. And different titles have
different texts. -/
theorem text_unambiguous :
    (∀ s : String,
      ((∃ t, parse s = .ok t) ↔ s.toUTF8.size = 4 ∧ ∀ b ∈ s.toUTF8.data, isAlphanumeric b = true) ∧
      (∀ t, parse s = .ok t → t.text = s) ∧
      ∀ e, parse s = .error e → e = .invalidTitleCode s) ∧
    (∀ t : Title, t.text.toList = t.bytes.flatMap written ∧
      ∀ u, parse t.text = .ok u ↔ (∀ b ∈ t.bytes, isAlphanumeric b = true) ∧ u = t) ∧
    Function.Injective text := by
  refine ⟨fun s => ⟨exists_parse_eq_ok_iff, fun t read => ?_, fun e => eq_invalidTitleCode⟩,
    fun t => ⟨toList_text_eq_flatMap t, fun u => ?_⟩, text_injective⟩
  · exact (parse_eq_ok_iff.1 read).2.symm
  rw [parse_eq_ok_iff]
  constructor
  · rintro ⟨code, same⟩
    obtain rfl := text_injective same
    exact ⟨code, rfl⟩
  · rintro ⟨code, rfl⟩
    exact ⟨code, rfl⟩

/-- A text that spells an escape has the four characters of a title of its own, but is no code. -/
theorem text_unambiguous_escape :
    let code : Title := .ofChars 'B' '3' 'R' 'E'
    let spelled : Title := .ofChars '\\' 'x' '0' '0'
    (parse "B3RE" = .ok code ∧ code.text = "B3RE") ∧
      (parse "\\x00" = .error (.invalidTitleCode "\\x00") ∧ spelled.text = "\\x00") ∧
      ∀ t : Title, t.text = "\\x00" → t = spelled := by
  intro code spelled
  obtain ⟨reads, writes, injective⟩ := text_unambiguous
  have read : parse "B3RE" = .ok code := by decide
  have failed : parse "\\x00" = .error (.invalidTitleCode "\\x00") := by decide
  have chars : spelled.text = "\\x00" := String.toList_inj.1 ((writes spelled).1.trans (by decide))
  exact ⟨⟨read, (reads _).2.1 _ read⟩, ⟨failed, chars⟩, fun t same => injective (same.trans chars.symm)⟩

end Redraw.Title

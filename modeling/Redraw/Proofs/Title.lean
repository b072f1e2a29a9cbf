import Mathlib.Data.List.Basic
import Redraw.Proofs.Word
import Redraw.Title

/-!
# Codes that can be read

A title is any word, but only four letters or digits are a code that can be read. Reading a text gives the one title that
is a code and is written so (`parse_eq_ok_iff`).
-/

namespace Redraw.Title

/-- Whether a byte is the code of an ASCII letter or digit. -/
def isAlphanumeric (b : UInt8) : Bool :=
  (0x30 ≤ b && b ≤ 0x39) || (0x41 ≤ b && b ≤ 0x5A) || (0x61 ≤ b && b ≤ 0x7A)

/-- All four bytes of the title are codes of letters or digits. -/
def IsCode (t : Title) : Prop := ∀ b ∈ t.bytes, isAlphanumeric b

instance (t : Title) : Decidable t.IsCode := List.decidableBAll (isAlphanumeric ·) t.bytes

/-! ## The bytes of a title -/

theorem toNat_raw_ofBytes (a b c d : UInt8) :
    (ofBytes a b c d).raw.toNat = a.toNat + 2 ^ 8 * b.toNat + 2 ^ 16 * c.toNat + 2 ^ 24 * d.toNat :=
  toNat_word_of_bytes a b c d

theorem map_toNat_bytes (t : Title) :
    t.bytes.map UInt8.toNat = [t.raw.toNat % 2 ^ 8, t.raw.toNat / 2 ^ 8 % 2 ^ 8, t.raw.toNat / 2 ^ 16 % 2 ^ 8,
      t.raw.toNat / 2 ^ 24] := by
  have := t.raw.toNat_lt
  simp [bytes, Nat.shiftRight_eq_div_pow]
  omega

theorem bytes_ofBytes (a b c d : UInt8) : (ofBytes a b c d).bytes = [a, b, c, d] := by
  have := a.toNat_lt
  have := b.toNat_lt
  have := c.toNat_lt
  have := d.toNat_lt
  apply List.map_injective_iff.2 (fun _ _ => UInt8.toNat_inj.1)
  simp only [map_toNat_bytes, toNat_raw_ofBytes, List.map_cons, List.map_nil, List.cons.injEq, and_true]
  omega

theorem bytes_injective : Function.Injective bytes := by
  rintro ⟨v⟩ ⟨w⟩ same
  have digits := congrArg (List.map UInt8.toNat) same
  simp only [map_toNat_bytes, List.cons.injEq, and_true] at digits
  exact congrArg Title.mk (UInt32.toNat_inj.1 (by omega))

/-! ## The characters of a code -/

/-- The character that a byte is the code of. -/
def character (b : UInt8) : Char := Char.ofNat b.toNat

@[simp]
theorem toNat_character (b : UInt8) : (character b).toNat = b.toNat := by
  have := b.toNat_lt
  rw [character, Char.ofNat, dif_pos (.inl (by omega))]
  rfl

@[simp]
theorem toUInt8_character (b : UInt8) : (character b).toUInt8 = b := by
  have := b.toNat_lt
  apply UInt8.toNat_inj.1
  rw [Char.toUInt8, UInt32.toNat_toUInt8, Char.toNat_val, toNat_character]
  omega

theorem character_toUInt8 {c : Char} (small : c.toNat < 2 ^ 8) : character c.toUInt8 = c := by
  rw [character, Char.toUInt8, UInt32.toNat_toUInt8, Char.toNat_val, Nat.mod_eq_of_lt small, Char.ofNat_toNat]

theorem isAlphanum_iff {c : Char} : c.isAlphanum = true ↔
    (0x30 ≤ c.toNat ∧ c.toNat ≤ 0x39) ∨ (0x41 ≤ c.toNat ∧ c.toNat ≤ 0x5A) ∨ 0x61 ≤ c.toNat ∧ c.toNat ≤ 0x7A := by
  delta Char.isAlphanum Char.isAlpha Char.isUpper Char.isLower Char.isDigit
  simp [UInt32.le_iff_toNat_le]
  tauto

theorem isAlphanumeric_iff {b : UInt8} : isAlphanumeric b = true ↔
    (0x30 ≤ b.toNat ∧ b.toNat ≤ 0x39) ∨ (0x41 ≤ b.toNat ∧ b.toNat ≤ 0x5A) ∨ 0x61 ≤ b.toNat ∧ b.toNat ≤ 0x7A := by
  simp [isAlphanumeric, UInt8.le_iff_toNat_le, or_assoc]

theorem isAlphanum_character (b : UInt8) : (character b).isAlphanum = isAlphanumeric b := by
  rw [Bool.eq_iff_iff, isAlphanum_iff, isAlphanumeric_iff, toNat_character]

theorem exists_character {c : Char} (h : c.isAlphanum = true) : ∃ b, character b = c := by
  rw [isAlphanum_iff] at h
  exact ⟨c.toUInt8, character_toUInt8 (by omega)⟩

theorem byteText_of_isAlphanumeric {b : UInt8} (h : isAlphanumeric b = true) : byteText b = (character b).toString := by
  have graphic : isGraphic b = true := by
    rw [isAlphanumeric_iff] at h
    simp [isGraphic, UInt8.le_iff_toNat_le]
    omega
  rw [byteText, if_pos graphic, character]

/-! ## Reading -/

/-- A code is written as its four characters. -/
theorem toList_text {t : Title} (code : t.IsCode) : t.text.toList = t.bytes.map character := by
  rw [text, String.toList_join, List.flatMap_map, List.map_eq_flatMap]
  refine List.flatMap_congr fun b mem => ?_
  rw [byteText_of_isAlphanumeric (code b mem), Char.toString_eq_singleton, String.toList_singleton]

theorem parse_of_toList {s : String} {t : Title} (code : t.IsCode) (chars : s.toList = t.bytes.map character) :
    parse s = .ok t := by
  obtain ⟨a, b, c, d, bytes⟩ : ∃ a b c d, t.bytes = [a, b, c, d] := ⟨_, _, _, _, rfl⟩
  have same : ofBytes a b c d = t := bytes_injective ((bytes_ofBytes a b c d).trans bytes.symm)
  rw [IsCode, bytes, List.forall_mem_cons, List.forall_mem_cons, List.forall_mem_cons, List.forall_mem_singleton] at code
  rw [bytes] at chars
  obtain ⟨first, second, third, fourth⟩ := code
  simp [parse, chars, isAlphanum_character, first, second, third, fourth, ofChars, same]

theorem toList_of_parse {s : String} {t : Title} (h : parse s = .ok t) :
    t.IsCode ∧ s.toList = t.bytes.map character := by
  unfold parse at h
  split at h
  · rename_i chars
    split at h
    · rename_i alphanum
      simp only [Bool.and_eq_true] at alphanum
      obtain ⟨⟨⟨first, second⟩, third⟩, fourth⟩ := alphanum
      obtain ⟨a, rfl⟩ := exists_character first
      obtain ⟨b, rfl⟩ := exists_character second
      obtain ⟨c, rfl⟩ := exists_character third
      obtain ⟨d, rfl⟩ := exists_character fourth
      rw [isAlphanum_character] at first second third fourth
      cases h
      simp [IsCode, ofChars, bytes_ofBytes, chars, first, second, third, fourth]
    · cases h
  · cases h

/-- Reading accepts the codes, each as it is written, and no other text. -/
theorem parse_eq_ok_iff {s : String} {t : Title} : parse s = .ok t ↔ t.IsCode ∧ s = t.text := by
  constructor
  · intro h
    obtain ⟨code, chars⟩ := toList_of_parse h
    exact ⟨code, String.toList_inj.1 (chars.trans (toList_text code).symm)⟩
  · rintro ⟨code, rfl⟩
    exact parse_of_toList code (toList_text code)

end Redraw.Title

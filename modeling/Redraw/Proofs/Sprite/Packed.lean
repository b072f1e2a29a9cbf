import Mathlib.Algebra.Order.Ring.Int
import Mathlib.Logic.ExistsUnique
import Mathlib.Tactic.ByContra
import Redraw.Proofs.Sprite.Fixed

/-!
# Packed texels

The texels of a packed sprite are numbered row by row, two to a byte (`FixedSprite.packedNumber`). The sprite finds the byte
of a texel by its number and the half of the byte by its stored column, so in a row that begins inside of a byte it reads the
other texel of each byte (`FixedSprite.numberRead`). The sprite is read in order, each of its texels once, exactly if no row
begins so (`FixedSprite.packed_in_order_iff`).
-/

namespace Redraw

/-- The texel with a number in a sequence of packed texels, the first of each byte in its high half. -/
def packedTexel (view : View) (data : Address) (n : Int) : UInt8 :=
  let byte := view.read (data + addressOf (n / 2))
  if 2 ∣ n then byte >>> 4 else byte &&& 0xF

namespace FixedSprite

/-! ## Numbers of texels -/

/-- The number of a texel of the sprite, row by row. -/
def packedNumber (s : FixedSprite) (x y : Int) : Int := y * s.width + s.storedColumn x

/-- The number of the texel that is read at a position: its own in a row that begins with a byte, and that of the other texel
of the byte in a row that begins inside of one. -/
def numberRead (s : FixedSprite) (x y : Int) : Int :=
  if 2 ∣ y * s.width then s.packedNumber x y else s.packedNumber x y + 1 - 2 * (s.packedNumber x y % 2)

/-- No row of the sprite with texels begins inside of a byte. -/
def Aligned (s : FixedSprite) : Prop := 2 ∣ s.width ∨ s.width ≤ 0 ∨ s.height ≤ 1

instance (s : FixedSprite) : Decidable s.Aligned := inferInstanceAs (Decidable (2 ∣ s.width ∨ s.width ≤ 0 ∨ s.height ≤ 1))

theorem texel_eq_packedTexel {s : FixedSprite} (packed : s.format = .nibbles) (view : View) (x y : Int) :
    s.texel view x y = packedTexel view s.data (s.numberRead x y) := by
  have byte : (y * s.width + s.storedColumn x) / 2 = s.numberRead x y / 2 := by
    unfold numberRead packedNumber
    split <;> omega
  have half : s.storedColumn x % 2 = 1 ↔ ¬ 2 ∣ s.numberRead x y := by
    unfold numberRead packedNumber
    split <;> omega
  simp only [texel, packed, nibble, packedTexel, byte, half, ite_not]

theorem numberRead_eq_iff {s : FixedSprite} {x y : Int} : s.numberRead x y = s.packedNumber x y ↔ 2 ∣ y * s.width := by
  unfold numberRead
  split <;> omega

/-! ## Positions of texels -/

theorem storedColumn_storedColumn (s : FixedSprite) (x : Int) : s.storedColumn (s.storedColumn x) = x := by
  unfold storedColumn
  split <;> omega

theorem storedColumn_mem {s : FixedSprite} {x : Int} (left : 0 ≤ x) (right : x < s.width) :
    0 ≤ s.storedColumn x ∧ s.storedColumn x < s.width := by
  unfold storedColumn
  split <;> omega

/-- Row and column of a texel are quotient and remainder of its number by the width. -/
theorem packedNumber_eq_iff {s : FixedSprite} {x y n : Int} (has : s.HasTexel x y) :
    s.packedNumber x y = n ↔ x = s.storedColumn (n % s.width) ∧ y = n / s.width := by
  obtain ⟨left, right, -⟩ := has
  obtain ⟨first, last⟩ := storedColumn_mem left right
  have parts := Int.ediv_emod_unique (a := n) (q := y) (r := s.storedColumn x) (Int.lt_of_le_of_lt left right)
  constructor
  · intro number
    obtain ⟨row, column⟩ := parts.2 ⟨by rw [← number, packedNumber, Int.mul_comm, Int.add_comm], first, last⟩
    rw [column, storedColumn_storedColumn]
    exact ⟨rfl, row.symm⟩
  · rintro ⟨column, row⟩
    rw [packedNumber, ← (parts.1 ⟨row.symm, by rw [column, storedColumn_storedColumn]⟩).1, Int.mul_comm, Int.add_comm]

/-- The numbers of the texels run through the area of the sprite. -/
theorem existsUnique_packedNumber (s : FixedSprite) {n : Int} (first : 0 ≤ n)
    (last : n < (s.width.toNat * s.height.toNat : Nat)) :
    ∃! p : Int × Int, s.HasTexel p.1 p.2 ∧ s.packedNumber p.1 p.2 = n := by
  have texels : 0 < s.width.toNat * s.height.toNat := Int.natCast_pos.1 (Int.lt_of_le_of_lt first last)
  have wide : 0 < s.width := Int.lt_toNat.1 (Nat.pos_of_mul_pos_right texels)
  have high : 0 < s.height := Int.lt_toNat.1 (Nat.pos_of_mul_pos_left texels)
  rw [Nat.cast_mul, Int.toNat_of_nonneg wide.le, Int.toNat_of_nonneg high.le] at last
  obtain ⟨left, right⟩ := storedColumn_mem (Int.emod_nonneg n wide.ne') (Int.emod_lt_of_pos n wide)
  have has : s.HasTexel (s.storedColumn (n % s.width)) (n / s.width) :=
    ⟨left, right, Int.ediv_nonneg first wide.le, Int.ediv_lt_of_lt_mul wide (by rwa [Int.mul_comm])⟩
  refine ⟨(s.storedColumn (n % s.width), n / s.width), ⟨has, (packedNumber_eq_iff has).2 ⟨rfl, rfl⟩⟩, ?_⟩
  rintro ⟨x, y⟩ ⟨inside, number⟩
  obtain ⟨column, row⟩ := (packedNumber_eq_iff inside).1 number
  exact Prod.ext column row

/-! ## Rows that begin inside of a byte -/

theorem not_aligned_iff {s : FixedSprite} : ¬ s.Aligned ↔ ¬ 2 ∣ s.width ∧ 0 < s.width ∧ 1 < s.height := by
  simp only [Aligned, not_or, Int.not_le]

theorem aligned_iff {s : FixedSprite} : s.Aligned ↔ ∀ x y : Int, s.HasTexel x y → 2 ∣ y * s.width := by
  constructor
  · rintro aligned x y ⟨left, right, top, bottom⟩
    rcases aligned with even | narrow | low
    · exact even.mul_left y
    · omega
    · obtain rfl : y = 0 := by omega
      simp
  · intro begins
    by_contra unaligned
    obtain ⟨odd, wide, high⟩ := not_aligned_iff.1 unaligned
    exact odd (by simpa using begins 0 1 ⟨Int.le_refl 0, wide, Int.zero_le_ofNat 1, high⟩)

/-- The texel that the second row should begin with is read nowhere if that row begins inside of a byte. -/
theorem numberRead_ne_width {s : FixedSprite} (unaligned : ¬ s.Aligned) {x y : Int} (has : s.HasTexel x y) :
    s.numberRead x y ≠ s.width := by
  obtain ⟨odd, wide, -⟩ := not_aligned_iff.1 unaligned
  obtain ⟨left, right, top, -⟩ := has
  obtain ⟨first, last⟩ := storedColumn_mem left right
  unfold numberRead packedNumber
  -- the first row stays below the width, and rows from the third on are too far up; the second one exchanges its texels
  rcases (by omega : y = 0 ∨ y = 1 ∨ 2 ≤ y) with rfl | rfl | below
  · simp only [Int.zero_mul, Int.dvd_zero, if_true]
    omega
  · simp only [Int.one_mul, odd, if_false]
    omega
  · have rows : 2 * s.width ≤ y * s.width := Int.mul_le_mul_of_nonneg_right below wide.le
    split <;> omega

end FixedSprite

/-- **Packed sprites.** A packed sprite reads at each position the texel `numberRead`. That is the texel of this position in
the order of the rows everywhere on the sprite, and each texel is read at one position, exactly if the width is even or the
sprite has no second row of texels. -/
theorem FixedSprite.packed_in_order_iff (s : FixedSprite) (packed : s.format = .nibbles) :
    (∀ (view : View) (x y : Int), s.texel view x y = packedTexel view s.data (s.numberRead x y)) ∧
      ((∀ x y : Int, s.HasTexel x y → s.numberRead x y = s.packedNumber x y) ↔ s.Aligned) ∧
      ((∀ n : Int, 0 ≤ n → n < (s.width.toNat * s.height.toNat : Nat) →
        ∃! p : Int × Int, s.HasTexel p.1 p.2 ∧ s.numberRead p.1 p.2 = n) ↔ s.Aligned) := by
  have inOrder : (∀ x y : Int, s.HasTexel x y → s.numberRead x y = s.packedNumber x y) ↔ s.Aligned := by
    simp only [numberRead_eq_iff, aligned_iff]
  refine ⟨texel_eq_packedTexel packed, inOrder, fun once => ?_, fun aligned n first last => ?_⟩
  · by_contra unaligned
    obtain ⟨-, wide, high⟩ := not_aligned_iff.1 unaligned
    have last : s.width < (s.width.toNat * s.height.toNat : Nat) := by
      rw [Nat.cast_mul, Int.toNat_of_nonneg wide.le, Int.toNat_of_nonneg (Int.zero_lt_one.trans high).le]
      exact lt_mul_of_one_lt_right wide high
    obtain ⟨p, ⟨has, number⟩, -⟩ := once s.width wide.le last
    exact numberRead_ne_width unaligned has number
  · have reads : ∀ p : Int × Int, s.HasTexel p.1 p.2 ∧ s.numberRead p.1 p.2 = n ↔
        s.HasTexel p.1 p.2 ∧ s.packedNumber p.1 p.2 = n :=
      fun p => and_congr_right fun has => by rw [inOrder.2 aligned p.1 p.2 has]
    simpa only [reads] using s.existsUnique_packedNumber first last

/-- A mirrored sprite of two rows of four texels. -/
theorem FixedSprite.packed_in_order_even :
    let s : FixedSprite := ⟨0, 0, 4, 2, true, 0x08000000, .nibbles, 0⟩
    let view := View.ofAddress (.withCartridge ⟨#[0x12, 0x34, 0x56, 0x78]⟩ true) 0x08000000
    s.format = .nibbles ∧ s.Aligned ∧
      (∀ x y : Int, s.HasTexel x y → s.numberRead x y = s.packedNumber x y) ∧
      s.texel view 3 1 = packedTexel view s.data 4 ∧ packedTexel view s.data 4 = 5 := by
  intro s view
  obtain ⟨reads, order, -⟩ := packed_in_order_iff s rfl
  have aligned : s.Aligned := by decide
  refine ⟨rfl, aligned, order.2 aligned, ?_, by decide⟩
  rw [reads, order.2 aligned 3 1 (by decide)]
  rfl

/-- The second row of a sprite of three columns begins inside of a byte. It begins with the last texel of the first row, and
the texel that it should begin with is read nowhere. -/
theorem FixedSprite.packed_out_of_order :
    let s : FixedSprite := ⟨0, 0, 3, 2, false, 0x08000000, .nibbles, 0⟩
    let view := View.ofAddress (.withCartridge ⟨#[0x12, 0x34, 0x56]⟩ true) 0x08000000
    s.format = .nibbles ∧ s.HasTexel 0 1 ∧ s.texel view 0 1 = 3 ∧ packedTexel view s.data (s.packedNumber 0 1) = 4 ∧
      ((Canvas.blank 1).drawFixedSprite s view).pixel? 0 1 = some 3 ∧
      ∀ x y : Int, s.HasTexel x y → s.numberRead x y ≠ 3 := by
  intro s view
  refine ⟨rfl, by decide, by decide, by decide, ?_, fun x y => numberRead_ne_width (by decide)⟩
  rw [Canvas.pixel?_drawFixedSprite, if_pos (by decide)]
  decide

end Redraw

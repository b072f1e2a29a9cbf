import Mathlib.Data.Rat.Floor
import Redraw.Proofs.Reciprocal

/-!
# Reciprocals, slopes and interpolations beside the exact numbers

A reciprocal is the exact one rounded toward zero (`reciprocal_eq_floor`), so it lacks less than one unit
(`exists_lack`). What a slope or an interpolated coordinate is off by is made up of that lack, once for each unit that is
multiplied with the reciprocal, and of the rounding of the result (`exists_slope_error`, `exists_lerp_error`). The bounds on
both are read off from there: slopes to the right are never above the exact ones, slopes to the left less than one unit
below them (`division_by_reciprocals`), and an interpolation is less than one unit off as long as the way and the
denominator are moderate (`abs_lerp_sub_le`).
-/

namespace Redraw

/-! ## Reciprocals -/

theorem getElem?_reciprocalTable (m : Nat) :
    reciprocalTable[m]? = if m < reciprocalTableSize then some (0x40000000 / m) else none := by
  rw [reciprocalTable, Array.getElem?_ofFn]
  split <;> rfl

theorem reciprocal_eq_floor (n : Int) : reciprocal n = n.sign * ⌊(2 ^ 30 / |n| : ℚ)⌋ := by
  have exact : ⌊(2 ^ 30 / |n| : ℚ)⌋ = ((0x40000000 / n.natAbs : Nat) : Int) := by
    rw [← Nat.cast_natAbs]
    exact_mod_cast Rat.floor_natCast_div_natCast (2 ^ 30) n.natAbs
  rw [exact, reciprocal, getD_reciprocalTable]
  rcases lt_trichotomy n 0 with neg | rfl | pos
  · rw [if_pos neg, Int.sign_eq_neg_one_of_neg neg, neg_one_mul]
  · rfl
  · rw [if_neg pos.le.not_gt, Int.sign_eq_one_of_pos pos, one_mul]

/-- What a reciprocal lacks is less than one unit. -/
theorem exists_lack {w : Int} (pos : 0 < w) :
    ∃ lack : ℚ, 0 ≤ lack ∧ lack < 1 ∧ (2 ^ 30 / w : ℚ) = reciprocal w + lack := by
  refine ⟨Int.fract (2 ^ 30 / w : ℚ), Int.fract_nonneg _, Int.fract_lt_one _, ?_⟩
  rw [reciprocal_eq_floor, Int.sign_eq_one_of_pos pos, one_mul, abs_of_pos pos, Int.floor_add_fract]

/-! ## Slopes -/

theorem exists_slope_error (dx : Int) {dy : Int} (down : 0 < dy) :
    ∃ lack cut : ℚ, (0 ≤ lack ∧ lack < 1) ∧ (0 ≤ cut ∧ cut < 1) ∧
      (dx * 2 ^ 16 / dy : ℚ) = slope dx dy + cut + dx * lack / 2 ^ 14 := by
  obtain ⟨lack, nonneg, less, exact⟩ := exists_lack down
  have rounded : ((slope dx dy : Int) : ℚ) = ⌊(ratio dx dy : ℚ) / (2 ^ 14 : Nat)⌋ := by
    rw [Rat.floor_intCast_div_natCast]
    rfl
  refine ⟨lack, Int.fract ((ratio dx dy : ℚ) / (2 ^ 14 : Nat)), ⟨nonneg, less⟩, ⟨Int.fract_nonneg _, Int.fract_lt_one _⟩, ?_⟩
  calc (dx * 2 ^ 16 / dy : ℚ) = dx * (2 ^ 30 / dy) / 2 ^ 14 := by ring
    _ = (ratio dx dy : ℚ) / (2 ^ 14 : Nat) + dx * lack / 2 ^ 14 := by
        rw [exact, ratio]
        push_cast
        ring
    _ = _ := by rw [rounded, Int.floor_add_fract]

/-- To the right, a rounded slope is at most the slope. -/
theorem slope_le {dx dy : Int} (right : 0 ≤ dx) (down : 0 < dy) : (slope dx dy : ℚ) ≤ dx * 2 ^ 16 / dy := by
  obtain ⟨lack, cut, ⟨nonneg, -⟩, ⟨start, -⟩, exact⟩ := exists_slope_error dx down
  have below : 0 ≤ dx * lack := mul_nonneg (Int.cast_nonneg right) nonneg
  rw [exact]
  linarith

/-- To the left, a rounded slope is less than one unit below the slope. -/
theorem sub_one_lt_slope {dx dy : Int} (left : dx ≤ 0) (down : 0 < dy) : (dx * 2 ^ 16 / dy - 1 : ℚ) < slope dx dy := by
  obtain ⟨lack, cut, ⟨nonneg, -⟩, ⟨-, stop⟩, exact⟩ := exists_slope_error dx down
  have above : dx * lack ≤ 0 := mul_nonpos_of_nonpos_of_nonneg (Int.cast_nonpos.2 left) nonneg
  rw [exact]
  linarith

/-- A rounded slope is less than one unit off, and one more for every `2 ^ 14` of its width. -/
theorem abs_slope_sub_exact_lt (dx : Int) {dy : Int} (down : 0 < dy) :
    |(slope dx dy - dx * 2 ^ 16 / dy : ℚ)| < 1 + |dx| / 2 ^ 14 := by
  obtain ⟨lack, cut, ⟨nonneg, less⟩, ⟨start, stop⟩, exact⟩ := exists_slope_error dx down
  have lost : |dx * lack| ≤ |(dx : ℚ)| := by
    rw [abs_mul, abs_of_nonneg nonneg]
    exact mul_le_of_le_one_right (abs_nonneg _) less.le
  have bounds := abs_le.1 lost
  rw [exact, abs_lt, Int.cast_abs]
  constructor <;> linarith

/-- **Division by reciprocals.** The table holds the reciprocals of the numbers below its size, and a reciprocal is the exact
one rounded toward zero whether it is in the table or not. A slope is off by less than one unit and one more for every
`2 ^ 14` of its width. To the right it is never above the exact slope, and to the left it is less than a unit below it. -/
theorem division_by_reciprocals :
    (∀ m : Nat, reciprocalTable[m]? = if m < 2048 then some (2 ^ 30 / m) else none) ∧
    (∀ n : Int, n ≠ 0 → reciprocal n = n.sign * ⌊(2 ^ 30 / |n| : ℚ)⌋) ∧ reciprocal 0 = 0 ∧
    ∀ dx dy : Int, 0 < dy →
      |(slope dx dy - dx * 2 ^ 16 / dy : ℚ)| < 1 + |dx| / 2 ^ 14 ∧
      (0 ≤ dx → (slope dx dy : ℚ) ≤ dx * 2 ^ 16 / dy) ∧
      (dx < 0 → (dx * 2 ^ 16 / dy - 1 : ℚ) < slope dx dy) := by
  refine ⟨getElem?_reciprocalTable, fun n _ => reciprocal_eq_floor n, reciprocal_zero, fun dx dy down => ?_⟩
  exact ⟨abs_slope_sub_exact_lt dx down, fun right => slope_le right down, fun left => sub_one_lt_slope left.le down⟩

/-- The least word has the reciprocal zero, and a slope of that width still keeps to its bounds. -/
theorem division_by_reciprocals_extreme :
    let n : Int := -2147483648
    (n ≠ 0 ∧ reciprocal n = n.sign * ⌊(2 ^ 30 / |n| : ℚ)⌋) ∧
      (0 : Int) < 3 ∧ n < 0 ∧ (n * 2 ^ 16 / (3 : Int) - 1 : ℚ) < slope n 3 ∧
      |(slope n 3 - n * 2 ^ 16 / (3 : Int) : ℚ)| < 1 + |n| / 2 ^ 14 := by
  intro n
  have nonzero : n ≠ 0 := by decide
  have left : n < 0 := by decide
  obtain ⟨-, reciprocals, -, slopes⟩ := division_by_reciprocals
  obtain ⟨error, -, below⟩ := slopes n 3 (by decide)
  exact ⟨⟨nonzero, reciprocals n nonzero⟩, by decide, left, below left, error⟩

/-! ## Interpolations -/

theorem abs_round_sub_le (d : Int) : |(((d + 0x20000000) / 0x40000000 : Int) - d / 2 ^ 30 : ℚ)| ≤ 1 / 2 := by
  have floor : (d + 0x20000000) / 0x40000000 * 0x40000000 ≤ d + 0x20000000 := Int.ediv_mul_le _ (by decide)
  have floor' : d + 0x20000000 < ((d + 0x20000000) / 0x40000000 + 1) * 0x40000000 :=
    Int.lt_ediv_add_one_mul_self _ (by decide)
  generalize (d + 0x20000000) / 0x40000000 = r at *
  rw [← Int.cast_le (R := ℚ)] at floor
  rw [← Int.cast_lt (R := ℚ)] at floor'
  push_cast at floor floor'
  rw [abs_le]
  constructor <;> linarith

/-- An interpolation along a way that fits a word is off by at most a half from the rounding, and by what the reciprocal
lacks of the part of the way. -/
theorem exists_lerp_error {a b num den : Int} (lo : 0 ≤ num) (hi : num ≤ den) (pos : 0 < den)
    (fits : -2147483648 ≤ b - a) (fits' : b - a < 2147483648) :
    ∃ lack off : ℚ, (0 ≤ lack ∧ lack < 1) ∧ |off| ≤ 1 / 2 ∧
      (lerp a b (ratio num den) - (a + (b - a : Int) * num / den) : ℚ) = off - (b - a : Int) * num * lack / 2 ^ 30 := by
  obtain ⟨lack, nonneg, less, exact⟩ := exists_lack pos
  have part := round_between (d := b - a) (ratio_nonneg lo pos) (ratio_le_one hi pos)
  have whole : ((b - a : Int) * num / den : ℚ) =
      ((b - a) * ratio num den : Int) / 2 ^ 30 + (b - a : Int) * num * lack / 2 ^ 30 := by
    calc ((b - a : Int) * num / den : ℚ) = (b - a : Int) * num * (2 ^ 30 / den) / 2 ^ 30 := by ring
      _ = _ := by
        rw [exact, ratio]
        push_cast
        ring
  refine ⟨lack, _, ⟨nonneg, less⟩, abs_round_sub_le ((b - a) * ratio num den), ?_⟩
  rw [lerp, wrap32_eq_self (by omega) (by omega), whole, Int.cast_add]
  ring

/-- An interpolation is off by at most a half, and one for every `2 ^ 30` of the product of the way and the numerator. That is
less than one unit if the way times the denominator is at most `2 ^ 29`. -/
theorem abs_lerp_sub_le {a b num den : Int} (lo : 0 ≤ num) (hi : num ≤ den) (pos : 0 < den)
    (fits : -2147483648 ≤ b - a ∧ b - a < 2147483648) :
    |(lerp a b (ratio num den) - (a + (b - a : Int) * num / den) : ℚ)| ≤ 1 / 2 + |b - a| * num / 2 ^ 30 ∧
      (|b - a| * den ≤ 2 ^ 29 → |(lerp a b (ratio num den) - (a + (b - a : Int) * num / den) : ℚ)| < 1) := by
  obtain ⟨lack, off, ⟨nonneg, less⟩, half, error⟩ := exists_lerp_error lo hi pos fits.1 fits.2
  generalize b - a = d at *
  have lo' : (0 : ℚ) ≤ num := Int.cast_nonneg lo
  have hi' : (num : ℚ) ≤ den := Int.cast_le.2 hi
  have wide : (0 : ℚ) ≤ (|d| : Int) := Int.cast_nonneg (abs_nonneg d)
  have size : |(d * num * lack / 2 ^ 30 : ℚ)| = |d| * num * lack / 2 ^ 30 := by
    rw [abs_div, abs_mul, abs_mul, abs_of_nonneg lo', abs_of_nonneg nonneg, Int.cast_abs]
    norm_num
  have total : |(off - d * num * lack / 2 ^ 30 : ℚ)| ≤ 1 / 2 + |d| * num * lack / 2 ^ 30 :=
    (abs_sub _ _).trans (add_le_add half size.le)
  rw [error]
  constructor
  · have part : (|d| * num * lack : ℚ) ≤ |d| * num := mul_le_of_le_one_right (mul_nonneg wide lo') less.le
    linarith
  · intro small
    have small : (|d| * den : ℚ) ≤ 2 ^ 29 := by exact_mod_cast small
    have part : (|d| * num * lack : ℚ) < 2 ^ 29 := by
      calc (|d| * num * lack : ℚ) ≤ 2 ^ 29 * lack :=
            mul_le_mul_of_nonneg_right ((mul_le_mul_of_nonneg_left hi' wide).trans small) nonneg
        _ < 2 ^ 29 := by linarith
    linarith

end Redraw

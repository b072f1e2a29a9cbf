import Mathlib.Algebra.Order.Ring.Abs
import Mathlib.Tactic.Linarith
import Mathlib.Tactic.LinearCombination
import Mathlib.Tactic.Ring
import Redraw.Reciprocal

/-!
# Fractions that stay between their ends

The table holds what the division gives (`reciprocal_of_pos`), so no reciprocal is above that of one (`abs_reciprocal_le`),
and a fraction of an interval is a number of thirty bits from zero to one (`ratio_nonneg`, `ratio_le_one`). Interpolating by
such a fraction never leaves the interval between the two ends, rounding included (`lerp_between`). A quotient through a
reciprocal is off by the rounding, and by what the reciprocal lacks for each unit of the dividend
(`abs_mul_reciprocal_sub_lt`).
-/

namespace Redraw

/-- The table and the division agree. -/
theorem getD_reciprocalTable (n : Nat) : (reciprocalTable[n]?).getD (0x40000000 / n) = 0x40000000 / n := by
  rw [reciprocalTable, Array.getElem?_ofFn]
  split <;> rfl

theorem reciprocal_zero : reciprocal 0 = 0 := by
  rw [reciprocal, getD_reciprocalTable]
  rfl

theorem reciprocal_of_pos {n : Int} (pos : 0 < n) : reciprocal n = 0x40000000 / n := by
  obtain ⟨m, rfl⟩ := Int.eq_ofNat_of_zero_le pos.le
  rw [reciprocal, if_neg (by omega), Int.natAbs_natCast, getD_reciprocalTable]
  rfl

theorem reciprocal_of_neg {n : Int} (neg : n < 0) : reciprocal n = -(0x40000000 / -n) := by
  obtain ⟨m, rfl⟩ := Int.exists_eq_neg_ofNat neg.le
  rw [reciprocal, if_pos neg, Int.natAbs_neg, Int.natAbs_natCast, getD_reciprocalTable, neg_neg]
  rfl

/-! ## Sizes -/

theorem abs_mul_le {a b m n : Int} (ha : |a| ≤ m) (hb : |b| ≤ n) : |a * b| ≤ m * n := by
  rw [abs_mul]
  exact mul_le_mul ha hb (abs_nonneg b) ((abs_nonneg a).trans ha)

theorem abs_reciprocal_le (n : Int) : |reciprocal n| ≤ 0x40000000 := by
  have part (m : Int) : |0x40000000 / m| ≤ (0x40000000 : Int) := Int.abs_ediv_le_abs ..
  rcases lt_trichotomy n 0 with neg | rfl | pos
  · rw [reciprocal_of_neg neg, abs_neg]
    exact part _
  · rw [reciprocal_zero]
    decide
  · rw [reciprocal_of_pos pos]
    exact part _

theorem abs_ratio_one_le (w : Int) : |ratio 1 w| ≤ 0x40000000 := by
  rw [ratio, one_mul]
  exact abs_reciprocal_le w

theorem abs_slope_le {dx n : Int} (dy : Int) (size : |dx| ≤ n * 0x4000) : |slope dx dy| ≤ n * 0x40000000 := by
  have product := abs_le.1 (abs_mul_le size (abs_reciprocal_le dy))
  rw [slope, ratio, abs_le]
  omega

/-! ## Fractions -/

theorem ratio_nonneg {num den : Int} (lo : 0 ≤ num) (pos : 0 < den) : 0 ≤ ratio num den := by
  rw [ratio, reciprocal_of_pos pos]
  exact Int.mul_nonneg lo (Int.ediv_nonneg (by decide) pos.le)

theorem ratio_le_one {num den : Int} (hi : num ≤ den) (pos : 0 < den) : ratio num den ≤ 0x40000000 := by
  rw [ratio, reciprocal_of_pos pos]
  calc num * (0x40000000 / den) ≤ den * (0x40000000 / den) :=
        Int.mul_le_mul_of_nonneg_right hi (Int.ediv_nonneg (by decide) pos.le)
    _ ≤ 0x40000000 := Int.mul_ediv_self_le pos.ne'

/-- A part of a distance, rounded to nearest, lies between nothing and all of it. -/
theorem round_between {d t : Int} (lo : 0 ≤ t) (hi : t ≤ 0x40000000) :
    min 0 d ≤ (d * t + 0x20000000) / 0x40000000 ∧ (d * t + 0x20000000) / 0x40000000 ≤ max 0 d := by
  rcases le_total 0 d with pos | neg
  · have lower : 0 ≤ d * t := mul_nonneg pos lo
    have upper : d * t ≤ d * 0x40000000 := mul_le_mul_of_nonneg_left hi pos
    rw [min_eq_left pos, max_eq_right pos]
    omega
  · have lower : d * 0x40000000 ≤ d * t := mul_le_mul_of_nonpos_left hi neg
    have upper : d * t ≤ 0 := mul_nonpos_of_nonpos_of_nonneg neg lo
    rw [min_eq_right neg, max_eq_left neg]
    omega

/-- Interpolation stays between its ends, if their difference fits a word. -/
theorem lerp_between {a b t : Int} (lo : 0 ≤ t) (hi : t ≤ 0x40000000) (fits : -2147483648 ≤ b - a)
    (fits' : b - a < 2147483648) : min a b ≤ lerp a b t ∧ lerp a b t ≤ max a b := by
  have part := round_between (d := b - a) lo hi
  rw [lerp, wrap32_eq_self] <;> omega

/-! ## What quotients lose -/

/-- What is lost by dividing through a reciprocal: less than one unit from the rounding of the quotient, and as much again
for every `m` of the dividend from the reciprocal. -/
theorem abs_mul_reciprocal_sub_lt {d w m p n : Int} (pos : 0 < w) (unit : 0 < m) (one : m * p = 0x40000000)
    (size : |d| ≤ n * m) : |d * (0x40000000 / w) / m * w - d * p| < (n + 1) * w := by
  have lost := Int.mul_ediv_add_emod 0x40000000 w
  have lost_nonneg := Int.emod_nonneg 0x40000000 pos.ne'
  have lost_lt := Int.emod_lt_of_pos 0x40000000 pos
  have cut := Int.mul_ediv_add_emod (d * (0x40000000 / w)) m
  have cut_nonneg := Int.emod_nonneg (d * (0x40000000 / w)) unit.ne'
  have cut_lt := Int.emod_lt_of_pos (d * (0x40000000 / w)) unit
  generalize d * (0x40000000 / w) % m = ρ at *
  generalize (0x40000000 : Int) % w = σ at *
  have error : (d * (0x40000000 / w) / m * w - d * p) * m = -(d * σ + ρ * w) := by
    linear_combination w * cut + d * lost - d * one
  have bound : |d * σ + ρ * w| < (n + 1) * w * m :=
    calc |d * σ + ρ * w| ≤ |d * σ| + |ρ * w| := abs_add_le ..
      _ = |d| * σ + ρ * w := by rw [abs_mul, abs_of_nonneg lost_nonneg, abs_of_nonneg (mul_nonneg cut_nonneg pos.le)]
      _ < n * m * w + m * w := add_lt_add_of_le_of_lt
          (mul_le_mul size lost_lt.le lost_nonneg ((abs_nonneg d).trans size)) (mul_lt_mul_of_pos_right cut_lt pos)
      _ = (n + 1) * w * m := by ring
  rw [← abs_neg, ← error, abs_mul, abs_of_pos unit] at bound
  exact lt_of_mul_lt_mul_right bound unit.le

/-- A quotient by a reciprocal is off by less than one unit from the rounding, and by one for every `0x40000000` of the
dividend from the reciprocal. -/
theorem abs_ratio_one_mul_sub_lt {d w n : Int} (wide : w ≠ 0) (size : |d| ≤ n * 0x40000000) :
    |d * ratio 1 w / 0x40000000 * w - d| < (n + 1) * |w| := by
  rcases wide.lt_or_gt with neg | pos
  · have error := abs_mul_reciprocal_sub_lt (d := -d) (p := 1) (neg_pos.2 neg) (by decide) rfl ((abs_neg d).trans_le size)
    rw [ratio, reciprocal_of_neg neg, one_mul, abs_of_neg neg, mul_neg, ← neg_mul, ← abs_neg]
    convert error using 2
    ring
  · have error := abs_mul_reciprocal_sub_lt (p := 1) pos (by decide) rfl size
    rw [mul_one] at error
    rwa [ratio, reciprocal_of_pos pos, one_mul, abs_of_pos pos]

end Redraw

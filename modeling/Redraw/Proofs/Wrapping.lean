import Redraw.Proofs.Clip.Crossing

/-!
# Fractions and crossings in words

The coordinates of the machine are words of 32 bits; products and what is added to them are long words of 64. The definitions
reckon with integers instead and wrap around only where a value is brought back into a word. Here the steps are written
with every sum, difference and product wrapped around (`InWords`), and they give the same as long as the numbers that are
interpolated and their differences are words: a reciprocal has thirty bits, so that its product with a word is far from the
ends of a long word (`InWords.ratio_eq`), and an interpolated number lies between two words (`InWords.lerp_eq`). So a crossing
of words is reckoned without any wrapping around (`InWords.crossing_eq`).
-/

namespace Redraw

/-- The integer of the 64-bit two's complement range that agrees with `x` modulo `2 ^ 64`. -/
def wrap64 (x : Int) : Int := x.bmod 18446744073709551616

theorem wrap64_eq_self {x : Int} (lo : -9223372036854775808 ≤ x) (hi : x < 9223372036854775808) : wrap64 x = x := by
  rw [wrap64, Int.bmod_eq_of_le] <;> omega

theorem IsWord.wrap32_eq {x : Int} (word : IsWord x) : wrap32 x = x := wrap32_eq_self word.1 word.2

/-- A product does not wrap around if that of the bounds of its factors has at most 63 bits. -/
theorem wrap64_mul {a b m n : Int} (ha : |a| ≤ m) (hb : |b| ≤ n) (fits : m * n < 9223372036854775808) :
    wrap64 (a * b) = a * b := by
  have size := abs_le.1 (abs_mul_le ha hb)
  exact wrap64_eq_self (by omega) (by omega)

theorem IsWord.size_le {x : Int} (word : IsWord x) : |x| ≤ 0x80000000 := abs_le.2 ⟨word.1, word.2.le⟩

namespace InWords

/-! ## Fractions -/

def ratio (num den : Int) : Int := wrap64 (num * reciprocal den)

def slope (dx dy : Int) : Int := ratio dx dy / 0x4000

def lerp (a b t : Int) : Int :=
  wrap32 (a + wrap32 (wrap64 (wrap64 (wrap32 (b - a) * t) + 0x20000000) / 0x40000000))

theorem ratio_eq {num : Int} (den : Int) (word : IsWord num) : ratio num den = Redraw.ratio num den :=
  wrap64_mul word.size_le (abs_reciprocal_le den) (by decide)

theorem slope_eq {dx : Int} (dy : Int) (word : IsWord dx) : slope dx dy = Redraw.slope dx dy := by
  rw [slope, ratio_eq dy word, Redraw.slope]

theorem lerp_eq {a b t : Int} (start : IsWord a) (stop : IsWord b) (way : IsWord (b - a)) (lo : 0 ≤ t)
    (hi : t ≤ 0x40000000) : lerp a b t = Redraw.lerp a b t := by
  have fraction : |t| ≤ 0x40000000 := (abs_of_nonneg lo).trans_le hi
  have product := abs_le.1 (abs_mul_le way.size_le fraction)
  have between := lerp_between lo hi way.1 way.2
  rw [lerp, way.wrap32_eq, wrap64_mul way.size_le fraction (by decide), wrap64_eq_self (by omega) (by omega)]
  refine wrap32_eq_self ?_ ?_
  · exact (le_min start.1 stop.1).trans between.1
  · exact between.2.trans_lt (max_lt start.2 stop.2)

/-! ## Crossings -/

def crossingUp (s : ClipSide) (p q : Vertex) : Vertex :=
  let t := ratio (wrap32 (s.coordinate - s.across p)) (wrap32 (s.across q - s.across p))
  s.snap ⟨lerp p.x q.x t, lerp p.y q.y t, lerp p.u q.u t, lerp p.v q.v t⟩

def crossing (s : ClipSide) (p q : Vertex) : Vertex :=
  if s.across p ≤ s.across q then crossingUp s p q else crossingUp s q p

theorem crossingUp_eq {s : ClipSide} {p q : Vertex} (start : ∀ a, IsWord (p.along a)) (stop : ∀ a, IsWord (q.along a))
    (fits : FitsWord p q) (up : s.across p < s.across q) (lo : s.across p ≤ s.coordinate) (hi : s.coordinate ≤ s.across q) :
    crossingUp s p q = s.crossingUp p q := by
  have gap : IsWord (s.across q - s.across p) := by
    rw [s.across_eq_along, s.across_eq_along]
    exact fits s.axis
  have depth : IsWord (s.coordinate - s.across p) := ⟨by have := gap.1; omega, by have := gap.2; omega⟩
  have part : 0 ≤ Redraw.ratio (s.coordinate - s.across p) (s.across q - s.across p) := ratio_nonneg (by omega) (by omega)
  have whole : Redraw.ratio (s.coordinate - s.across p) (s.across q - s.across p) ≤ 0x40000000 :=
    ratio_le_one (by omega) (by omega)
  have coordinate (a : Axis) := lerp_eq (start a) (stop a) (fits a) part whole
  rw [crossingUp, gap.wrap32_eq, depth.wrap32_eq, ratio_eq _ depth]
  exact congrArg s.snap (Vertex.mk.injEq .. ▸ ⟨coordinate .x, coordinate .y, coordinate .u, coordinate .v⟩)

theorem crossing_eq_crossingUp (s : ClipSide) (p q : Vertex) :
    crossing s p q = crossingUp s (s.lowerEnd p q) (s.upperEnd p q) := by
  rw [crossing, ClipSide.lowerEnd, ClipSide.upperEnd]
  split <;> rfl

/-- Where a side separates two vertices of words and the way up is one of words, no step of their crossing wraps around. -/
theorem crossing_eq {s : ClipSide} {p q : Vertex} (apart : s.inside p ≠ s.inside q) (start : ∀ a, IsWord (p.along a))
    (stop : ∀ a, IsWord (q.along a)) (fits : FitsWord (s.lowerEnd p q) (s.upperEnd p q)) : crossing s p q = s.crossing p q := by
  obtain ⟨up, lo, hi⟩ := ClipSide.ends_straddle apart
  have words (a : Axis) : IsWord ((s.lowerEnd p q).along a) ∧ IsWord ((s.upperEnd p q).along a) := by
    rcases s.ends_cases p q with ⟨lower, upper⟩ | ⟨lower, upper⟩ <;> rw [lower, upper]
    · exact ⟨start a, stop a⟩
    · exact ⟨stop a, start a⟩
  rw [crossing_eq_crossingUp, s.crossing_eq_crossingUp]
  exact crossingUp_eq (fun a => (words a).1) (fun a => (words a).2) fits up lo hi

end InWords

end Redraw

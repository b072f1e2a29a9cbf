import Redraw.Proofs.Clip.Crossing
import Redraw.Proofs.Reciprocal.Error

/-!
# How exact a crossing is

A crossing is reckoned from the lower end of its edge. It lies on the side, and its other coordinates are interpolated: each
stays between those of the ends, and is off by at most a half from the rounding, and by one for every `2 ^ 30` of the
product of what is interpolated and what lies below the side (`ClipSide.crossing_accurate`).
-/

namespace Redraw.ClipSide

/-- **Accuracy of a crossing.** Take two vertices on different sides, whose differences fit a word. Across the side they are
`den` apart and the lower one is `num` below it. Their crossing lies on the side, and along every other axis, where they are
`d` apart, it lies between them and is at most `1 / 2 + |d| * num / 2 ^ 30` off the exact crossing, which is less than one
unit if `|d| * den` is at most `2 ^ 29`. -/
theorem crossing_accurate {s : ClipSide} {p q : Vertex} (apart : s.inside p ≠ s.inside q)
    (fits : FitsWord (s.lowerEnd p q) (s.upperEnd p q)) :
    let den := s.across (s.upperEnd p q) - s.across (s.lowerEnd p q)
    let num := s.coordinate - s.across (s.lowerEnd p q)
    0 < den ∧ (s.crossing p q).along s.axis = s.coordinate ∧
      ∀ a, a ≠ s.axis →
        let d := (s.upperEnd p q).along a - (s.lowerEnd p q).along a
        let exact : ℚ := (s.lowerEnd p q).along a + d * num / den
        (min (p.along a) (q.along a) ≤ (s.crossing p q).along a ∧
          (s.crossing p q).along a ≤ max (p.along a) (q.along a)) ∧
        |(s.crossing p q).along a - exact| ≤ 1 / 2 + |d| * num / 2 ^ 30 ∧
        (|d| * den ≤ 2 ^ 29 → |(s.crossing p q).along a - exact| < 1) := by
  intro den num
  obtain ⟨up, lo, hi⟩ := ends_straddle apart
  have between := crossing_between_of_fitsWord apart fits
  refine ⟨sub_pos.2 up, ?_, fun a other => ⟨between a, ?_⟩⟩
  · rw [crossing_eq_crossingUp, along_crossingUp_axis]
  · rw [crossing_eq_crossingUp, along_crossingUp other]
    exact abs_lerp_sub_le (sub_nonneg.2 lo) (Int.sub_le_sub_right hi _) (sub_pos.2 up) (fits a)

/-- An edge that comes down from the right: its lower end across the left side is the second vertex. -/
theorem crossing_accurate_leftward :
    let s : ClipSide := .left 0
    let p : Vertex := ⟨7, -6, 1000, 3⟩
    let q : Vertex := ⟨-3, 5, 7, -100⟩
    s.inside p ≠ s.inside q ∧ FitsWord (s.lowerEnd p q) (s.upperEnd p q) ∧ (s.crossing p q).along .x = 0 ∧
      |(s.crossing p q).along .u - (7 + 993 * 3 / 10 : ℚ)| < 1 := by
  intro s p q
  have apart : s.inside p ≠ s.inside q := by decide
  have fits : FitsWord (s.lowerEnd p q) (s.upperEnd p q) := fun a => by cases a <;> decide
  obtain ⟨-, on, others⟩ := crossing_accurate apart fits
  obtain ⟨-, -, close⟩ := others .u (by decide)
  have exact : ((7 : Int) + (993 : Int) * (3 : Int) / (10 : Int) : ℚ) = 7 + 993 * 3 / 10 := by norm_num
  exact ⟨apart, fits, on, exact ▸ close (by decide)⟩

end Redraw.ClipSide

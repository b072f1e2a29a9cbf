import Mathlib.Data.Rat.Floor
import Redraw.Proofs.Affine.Plane
import Redraw.Proofs.Triangle.Box

/-!
# Which texels a fill reads

A covered pixel lies close to a point of the triangle, so the plane of a coordinate has nearly a value there that the coordinate
has in the triangle (`Triangle.Covers.exists_value`). What is missing grows with the steps of the plane, which are those of a run
whose width is rounded to whole eighths. So a fill stays within a texel of the range of the vertices where the steps are moderate,
and else within about half a step for an eighth of a pixel (`Triangle.samples_near_vertices`). Where the steps are steep, it does
leave the range by more than a texel (`Triangle.samples_past_vertices`).
-/

namespace Redraw

namespace Triangle

variable {t : Triangle} {coordinate : Vertex → Int} {X Y n : Int} {β γ : ℚ}

/-- The value of a coordinate at the point of a triangle with the given weights. -/
def valueAt (t : Triangle) (coordinate : Vertex → Int) (β γ : ℚ) : ℚ :=
  coordinate t.a + β * (coordinate t.b - coordinate t.a) + γ * (coordinate t.c - coordinate t.a)

theorem Weights.valueAt_between (weights : t.Weights Y β γ) {lo hi : Int}
    (all : ∀ p ∈ t.vertices, lo ≤ coordinate p ∧ coordinate p ≤ hi) :
    (lo : ℚ) ≤ t.valueAt coordinate β γ ∧ t.valueAt coordinate β γ ≤ hi := by
  simp only [forall_mem_vertices, ← Int.cast_le (R := ℚ)] at all
  obtain ⟨⟨la, ga⟩, ⟨lb, gb⟩, ⟨lc, gc⟩⟩ := all
  obtain ⟨middle, lower, upper, -⟩ := weights
  have upper := sub_nonneg.2 upper
  have mean : t.valueAt coordinate β γ = (1 - (β + γ)) * coordinate t.a + β * coordinate t.b + γ * coordinate t.c := by
    unfold valueAt
    ring
  constructor
  · linarith [mul_le_mul_of_nonneg_left la upper, mul_le_mul_of_nonneg_left lb middle, mul_le_mul_of_nonneg_left lc lower]
  · linarith [mul_le_mul_of_nonneg_left ga upper, mul_le_mul_of_nonneg_left gb middle, mul_le_mul_of_nonneg_left gc lower]

/-- What the steps of a plane add up to at a pixel beyond what the coordinate rises to a point of the triangle, with thirty-two
fraction bits. -/
def stepError (t : Triangle) (coordinate : Vertex → Int) (X Y : Int) (β : ℚ) : ℚ :=
  (Gradient.ofTriangle t coordinate).dx * lead (·.x) t.a t.c (X * 8 + 4) (Y * 8 + 4) - β * t.rise coordinate * 0x10000

/-- The bound of the error of a step: what the quotient loses, and for each unit of the step what the edges and the width of the
run lose. -/
def stepBound (t : Triangle) (coordinate : Vertex → Int) (n : Int) : ℚ :=
  (n + 1) * 0x4000 * 0x10000 + |((Gradient.ofTriangle t coordinate).dx : ℚ)| * (4 * (t.c.y - t.a.y) + 7 + 0x8000)

theorem Weighs.abs_stepError_le (weighs : t.Weighs X Y β γ) (proper : t.Proper) (wide : t.runWidth ≠ 0)
    (size : |t.rise coordinate| ≤ n * 0x40000000) : |t.stepError coordinate X Y β| ≤ t.stepBound coordinate n := by
  have start := weighs.middle
  have stop := weighs.middle_le_one
  have units : (0 : ℚ) ≤ n + 1 := by
    have : 0 ≤ n := by linarith [abs_nonneg (t.rise coordinate)]
    exact_mod_cast this.trans (by omega)
  have edges := mul_le_mul_of_nonneg_left weighs.near (abs_nonneg ((Gradient.ofTriangle t coordinate).dx : ℚ))
  have run : |(t.rise (·.x) - t.runWidth * 0x10000 : ℚ)| ≤ 0x8000 := by exact_mod_cast proper.abs_run_sub_le.1
  have width : |(t.runWidth : ℚ)| ≤ 0x4000 := by exact_mod_cast proper.abs_run_sub_le.2
  have cut : |((Gradient.ofTriangle t coordinate).dx * t.runWidth - t.rise coordinate : ℚ)| ≤ (n + 1) * 0x4000 := by
    have quotient := (Gradient.abs_dx_mul_sub_lt wide size).le
    rw [← Int.cast_le (R := ℚ)] at quotient
    push_cast at quotient
    exact quotient.trans (mul_le_mul_of_nonneg_left width units)
  unfold stepError stepBound
  generalize lead (·.x) t.a t.c (X * 8 + 4) (Y * 8 + 4) = d at *
  generalize (Gradient.ofTriangle t coordinate).dx = dx at *
  generalize t.rise coordinate = rise at *
  have parts : (dx * d - β * rise * 0x10000 : ℚ) = dx * (d - β * t.rise (·.x)) +
      β * (dx * (t.rise (·.x) - t.runWidth * 0x10000)) + β * ((dx * t.runWidth - rise) * 0x10000) := by
    ring
  calc |(dx * d - β * rise * 0x10000 : ℚ)|
      ≤ |(dx : ℚ)| * |(d - β * t.rise (·.x) : ℚ)| + β * (|(dx : ℚ)| * |(t.rise (·.x) - t.runWidth * 0x10000 : ℚ)|) +
          β * (|(dx * t.runWidth - rise : ℚ)| * 0x10000) := by
        rw [parts]
        refine (abs_add_three ..).trans_eq ?_
        simp only [abs_mul, abs_of_nonneg start, Nat.abs_ofNat]
    _ ≤ |(dx : ℚ)| * |(d - β * t.rise (·.x) : ℚ)| + |(dx : ℚ)| * |(t.rise (·.x) - t.runWidth * 0x10000 : ℚ)| +
          |(dx * t.runWidth - rise : ℚ)| * 0x10000 := by
        exact add_le_add (add_le_add le_rfl (mul_le_of_le_one_left (by positivity) stop))
          (mul_le_of_le_one_left (by positivity) stop)
    _ ≤ (n + 1) * 0x4000 * 0x10000 + |(dx : ℚ)| * (4 * (t.c.y - t.a.y) + 7 + 0x8000) := by
        linarith [mul_le_mul_of_nonneg_left run (abs_nonneg (dx : ℚ))]

theorem Covers.exists_stepError_le (covers : t.Covers 1 X Y) (proper : t.Proper)
    (size : |t.rise coordinate| ≤ n * 0x40000000) :
    ∃ β γ, t.Weights Y β γ ∧ |t.stepError coordinate X Y β| ≤ t.stepBound coordinate n := by
  by_cases thin : t.runWidth = 0
  · -- a plane without a step has the values of the long edge
    obtain ⟨γ, weights⟩ := covers.exists_weights_long
    refine ⟨0, γ, weights, ?_⟩
    have units : (0 : ℚ) ≤ n := by
      exact_mod_cast (by linarith [abs_nonneg (t.rise coordinate)] : 0 ≤ n)
    rw [stepError, stepBound, Gradient.dx_eq_zero thin, Int.cast_zero, zero_mul, zero_mul, zero_mul, sub_zero, abs_zero, zero_mul,
      add_zero]
    positivity
  · obtain ⟨β, γ, weighs⟩ := covers.exists_weights proper
    exact ⟨β, γ, weighs.toWeights, weighs.abs_stepError_le proper thin size⟩

/-- The value of a plane at a pixel lacks the error of the steps, that of the slope of the long edge, and a rounding. -/
theorem Weights.exists_atPixel_sub (weights : t.Weights Y β γ) (coordinate : Vertex → Int) (X : Int) :
    ∃ r : Int, 0 ≤ r ∧ r < 0x10000 ∧
      ((Gradient.ofTriangle t coordinate).atPixel t.a X Y - t.valueAt coordinate β γ * 0x10000 : ℚ) * 0x10000 =
        t.stepError coordinate X Y β - γ * lead coordinate t.a t.c (coordinate t.c) t.c.y * 0x10000 +
          (r * (Y * 8 + 4 - t.a.y) : Int) := by
  obtain ⟨r, start, stop, value⟩ := Gradient.exists_atPixel_mul t coordinate X Y
  refine ⟨r, start, stop, ?_⟩
  have value := congrArg (Int.cast (R := ℚ)) value
  have rise : (t.rise coordinate : ℚ) = (coordinate t.b - coordinate t.a) * 0x10000 -
      slope (coordinate t.c - coordinate t.a) (t.c.y - t.a.y) * (t.b.y - t.a.y) := by
    unfold rise lead
    push_cast
    ring
  have last : (lead coordinate t.a t.c (coordinate t.c) t.c.y : ℚ) = (coordinate t.c - coordinate t.a) * 0x10000 -
      slope (coordinate t.c - coordinate t.a) (t.c.y - t.a.y) * (t.c.y - t.a.y) := by
    unfold lead
    push_cast
    ring
  rw [stepError, rise, last, valueAt]
  push_cast at value ⊢
  linear_combination value - 0x10000 * slope (coordinate t.c - coordinate t.a) (t.c.y - t.a.y) * weights.height

/-! ## Coordinates of half words -/

/-- The values of a coordinate at the vertices are half words. -/
def HalfWords (t : Triangle) (coordinate : Vertex → Int) : Prop :=
  ∀ p ∈ t.vertices, -32768 ≤ coordinate p ∧ coordinate p < 32768

instance (t : Triangle) (coordinate : Vertex → Int) : Decidable (t.HalfWords coordinate) := List.decidableBAll ..

theorem HalfWords.sorted (half : t.HalfWords coordinate) : t.sorted.HalfWords coordinate :=
  fun p mem => half p ((perm_sorted t).subset mem)

theorem HalfWords.apart (half : t.HalfWords coordinate) :
    ∀ p ∈ t.vertices, ∀ q ∈ t.vertices, |coordinate q - coordinate p| ≤ 0x10000 := by
  intro p hp q hq
  have ⟨lo, hi⟩ := half p hp
  have ⟨lo', hi'⟩ := half q hq
  exact abs_le.2 ⟨by omega, by omega⟩

/-- The plane of a coordinate has nearly a value at a pixel that the coordinate has in the triangle. -/
theorem Covers.exists_value (covers : t.Covers 1 X Y) (proper : t.Proper) (half : t.HalfWords coordinate) :
    ∃ β γ, t.Weights Y β γ ∧
      |((Gradient.ofTriangle t coordinate).atPixel t.a X Y / 0x10000 - t.valueAt coordinate β γ : ℚ)| ≤
        3 + |((Gradient.ofTriangle t coordinate).dx : ℚ)| / 0x10000 * (1 / 2 + (t.c.y - t.a.y + 2) / 0x4000) := by
  obtain ⟨β, γ, weights, step⟩ := covers.exists_stepError_le proper (proper.abs_rise_le half.apart)
  obtain ⟨r, start, stop, parts⟩ := weights.exists_atPixel_sub coordinate X
  refine ⟨β, γ, weights, ?_⟩
  have long : |γ * lead coordinate t.a t.c (coordinate t.c) t.c.y| ≤ 5 * 0x4000 := by
    obtain ⟨ha, -, hc⟩ := forall_mem_vertices.1 half
    have height := proper.moderate.height _ t.a_mem_vertices _ t.c_mem_vertices
    have width : |coordinate t.c - coordinate t.a| ≤ 4 * 0x4000 := abs_le.2 ⟨by omega, by omega⟩
    have error := (abs_lead_lower_lt proper.ac width).le
    have error : |(lead coordinate t.a t.c (coordinate t.c) t.c.y : ℚ)| ≤ 5 * 0x4000 := by
      exact_mod_cast error.trans (by omega)
    rw [abs_mul, abs_of_nonneg weights.lower]
    exact (mul_le_of_le_one_left (abs_nonneg _) weights.lower_le_one).trans error
  have cut : |((r * (Y * 8 + 4 - t.a.y) : Int) : ℚ)| ≤ 0x10000 * 0x4000 := by
    exact_mod_cast covers.abs_mul_height_le proper ((abs_of_nonneg start).trans_le stop.le)
  unfold stepBound at step
  generalize (Gradient.ofTriangle t coordinate).atPixel t.a X Y = value at *
  generalize (Gradient.ofTriangle t coordinate).dx = dx at *
  have total : |(value - t.valueAt coordinate β γ * 0x10000 : ℚ) * 0x10000| ≤
      3 * 0x10000 * 0x10000 + |(dx : ℚ)| * (4 * (t.c.y - t.a.y) + 7 + 0x8000) := by
    rw [parts, sub_eq_add_neg]
    refine (abs_add_three ..).trans ?_
    rw [abs_neg, abs_mul _ 0x10000, Nat.abs_ofNat]
    push_cast at step cut ⊢
    linarith
  have scaled : (value / 0x10000 - t.valueAt coordinate β γ : ℚ) =
      (value - t.valueAt coordinate β γ * 0x10000) * 0x10000 / (0x10000 * 0x10000) := by ring
  rw [scaled, abs_div, abs_of_pos (by norm_num : (0 : ℚ) < 0x10000 * 0x10000), div_le_iff₀ (by norm_num)]
  linarith [abs_nonneg (dx : ℚ)]

/-! ## Texels -/

/-- How many texels the plane of a coordinate goes on from one pixel of a row to the next. -/
def steepness (t : Triangle) (coordinate : Vertex → Int) : ℚ :=
  |((Gradient.ofTriangle t.sorted coordinate).dx : ℚ)| / 0x10000

/-- How far a plane may leave the range of the vertices, in eighths of a texel. -/
def margin (t : Triangle) (coordinate : Vertex → Int) : ℚ :=
  3 + t.steepness coordinate * (1 / 2 + (t.greatest (·.y) - t.least (·.y) + 2) / 0x4000)

/-- A texel is in the range of a coordinate at the vertices, up to the margin. It is so up to one texel if the margin is at most a
texel, as it is where the plane goes on by at most three texels from pixel to pixel. -/
structure Near (t : Triangle) (coordinate : Vertex → Int) (texel : Int) : Prop where
  within_margin : ⌊(t.least coordinate - t.margin coordinate) / 8⌋ ≤ texel ∧
    texel ≤ ⌊(t.greatest coordinate + t.margin coordinate) / 8⌋
  within_one : t.steepness coordinate ≤ 3 ∨ t.margin coordinate ≤ 8 →
    t.least coordinate / 8 - 1 ≤ texel ∧ texel ≤ t.greatest coordinate / 8 + 1

theorem height_sorted (t : Triangle) : t.sorted.c.y - t.sorted.a.y = t.greatest (·.y) - t.least (·.y) := by
  obtain ⟨upper, lower⟩ := heights_sorted t
  rw [upper, lower]
  rfl

theorem margin_le (coordinate : Vertex → Int)
    (range : ∀ p ∈ t.vertices, (-8192 ≤ p.x ∧ p.x ≤ 8191) ∧ -8192 ≤ p.y ∧ p.y ≤ 8191) :
    t.margin coordinate ≤ 3 + t.steepness coordinate * (8 / 5) := by
  have height := (moderate_sorted range).height _ t.sorted.a_mem_vertices _ t.sorted.c_mem_vertices
  rw [height_sorted] at height
  have height : (t.greatest (·.y) - t.least (·.y) : ℚ) < 0x4000 := by exact_mod_cast height
  refine add_le_add_right (mul_le_mul_of_nonneg_left ?_ (div_nonneg (abs_nonneg _) (by norm_num))) 3
  linarith

/-- The texel of a value that leaves the range by no more than the margin. -/
theorem near_of_value (range : ∀ p ∈ t.vertices, (-8192 ≤ p.x ∧ p.x ≤ 8191) ∧ -8192 ≤ p.y ∧ p.y ≤ 8191) {value : ℚ}
    (lo : t.least coordinate - t.margin coordinate ≤ value) (hi : value ≤ t.greatest coordinate + t.margin coordinate) :
    t.Near coordinate ⌊value / 8⌋ := by
  have small : t.steepness coordinate ≤ 3 ∨ t.margin coordinate ≤ 8 → t.margin coordinate ≤ 8 := by
    rintro (moderate | small)
    · linarith [margin_le coordinate range]
    · exact small
  refine ⟨⟨Int.floor_mono (by linarith), Int.floor_mono (by linarith)⟩, fun moderate => ?_⟩
  have small := small moderate
  constructor
  · have floor : (t.least coordinate / 8 * 8 : Int) ≤ (t.least coordinate : ℚ) := by exact_mod_cast Int.ediv_mul_le _ (by decide)
    rw [Int.le_floor]
    push_cast at floor ⊢
    linarith
  · have floor : (t.greatest coordinate : ℚ) < ((t.greatest coordinate / 8 + 1) * 8 : Int) := by
      exact_mod_cast Int.lt_ediv_add_one_mul_self _ (by decide)
    rw [← Int.lt_add_one_iff, Int.floor_lt]
    push_cast at floor ⊢
    linarith

/-- A moderate value is in a texel that does not wrap around. -/
theorem texelAt_eq_floor
    (size : |((Gradient.ofTriangle t.sorted coordinate).atPixel t.sorted.a X Y / 0x10000 : ℚ)| ≤ 0x40000) :
    t.texelAt coordinate X Y = ⌊((Gradient.ofTriangle t.sorted coordinate).atPixel t.sorted.a X Y / 0x10000 / 8 : ℚ)⌋ := by
  rw [abs_le] at size
  rw [texelAt]
  generalize (Gradient.ofTriangle t.sorted coordinate).atPixel t.sorted.a X Y = value at *
  have floor : value / 0x80000 = ⌊(value / 0x10000 / 8 : ℚ)⌋ := by
    rw [div_div]
    norm_num
    exact (Rat.floor_intCast_div_natCast value 0x80000).symm
  rw [floor, wrap32_eq_self]
  · rw [Int.le_floor]
    push_cast
    linarith
  · rw [Int.floor_lt]
    push_cast
    linarith

theorem texelAt_near (range : ∀ p ∈ t.vertices, (-8192 ≤ p.x ∧ p.x ≤ 8191) ∧ -8192 ≤ p.y ∧ p.y ≤ 8191)
    (half : t.HalfWords coordinate) (covers : t.sorted.Covers 1 X Y) : t.Near coordinate (t.texelAt coordinate X Y) := by
  have proper := proper_sorted range covers
  obtain ⟨β, γ, weights, close⟩ := covers.exists_value proper half.sorted
  have height : (t.sorted.c.y - t.sorted.a.y : ℚ) = t.greatest (·.y) - t.least (·.y) := by exact_mod_cast t.height_sorted
  rw [height] at close
  have close := abs_le.1 (show _ ≤ t.margin coordinate from close)
  have between := weights.valueAt_between fun p mem => t.between_least_greatest coordinate p ((perm_sorted t).subset mem)
  have words := weights.valueAt_between fun p mem => ⟨(half.sorted p mem).1, (half.sorted p mem).2.le⟩
  have steep : t.steepness coordinate ≤ 0x20000 := by
    have size : |((Gradient.ofTriangle t.sorted coordinate).dx : ℚ)| ≤ 5 * 0x40000000 := by
      exact_mod_cast Gradient.abs_dx_le (proper.abs_rise_le half.sorted.apart)
    rw [steepness, div_le_iff₀ (by norm_num)]
    linarith
  have small := margin_le coordinate range
  push_cast at words
  rw [texelAt_eq_floor (abs_le.2 ⟨by linarith, by linarith⟩)]
  exact near_of_value range (by linarith) (by linarith)

/-- **Near the vertices.** Take a triangle with vertices within 1024 logical pixels of the origin and texture coordinates that are
half words. At scale one a textured fill shows a texel near the range of the vertices at each pixel that a plain fill sets. -/
theorem samples_near_vertices (range : ∀ p ∈ t.vertices, (-8192 ≤ p.x ∧ p.x ≤ 8191) ∧ -8192 ≤ p.y ∧ p.y ≤ 8191)
    (hu : t.HalfWords (·.u)) (hv : t.HalfWords (·.v)) (paints : t.Paints 1 X Y) :
    ∃ u v, t.Samples X Y u v ∧ t.Near (·.u) u ∧ t.Near (·.v) v := by
  obtain ⟨-, covers⟩ := paints_iff.1 paints
  exact ⟨_, _, samples_iff.2 ⟨paints, rfl, rfl⟩, texelAt_near range hu covers, texelAt_near range hv covers⟩

/-- A triangle whose run through the middle vertex is one and a half eighths wide, which is rounded to one. Its only pixel has the
center at that vertex, where the coordinate is 80, in texel 10. -/
def sliver : Triangle := ⟨⟨13, 4, 0, 0⟩, ⟨12, 12, 80, 0⟩, ⟨14, 20, 0, 0⟩⟩

theorem sorted_sliver : sliver.sorted = sliver := by decide

theorem paints_sliver : sliver.Paints 1 1 1 := by
  refine paints_iff.2 ⟨by decide, ?_⟩
  rw [sorted_sliver]
  simp [covers_iff, leftEdge, rightEdge, onLeft, middleOnLeft, shortEdge, longEdge, Edge.column, Edge.xAt, Edge.between,
    slope, ratio, reciprocal_of_pos, Vertex.row, toOutput, firstPixel, sliver]

/-- The plane goes on by 80 texels from pixel to pixel, so texel 15 is still within the margin. -/
theorem samples_near_vertices_sliver :
    (∀ p ∈ sliver.vertices, (-8192 ≤ p.x ∧ p.x ≤ 8191) ∧ -8192 ≤ p.y ∧ p.y ≤ 8191) ∧
      sliver.HalfWords (·.u) ∧ sliver.HalfWords (·.v) ∧ sliver.Paints 1 1 1 ∧ ∃ u v, sliver.Samples 1 1 u v ∧ u ≤ 15 := by
  have range : ∀ p ∈ sliver.vertices, (-8192 ≤ p.x ∧ p.x ≤ 8191) ∧ -8192 ≤ p.y ∧ p.y ≤ 8191 := by decide
  have hu : sliver.HalfWords (·.u) := by decide
  have hv : sliver.HalfWords (·.v) := by decide
  have steep : sliver.steepness (·.u) = 80 := by
    rw [steepness, sorted_sliver]
    norm_num [Gradient.ofTriangle, slope, ratio, reciprocal_of_pos, reciprocal_of_neg, wrap32, sliver]
  obtain ⟨u, v, samples, ⟨⟨-, last⟩, -⟩, -⟩ := samples_near_vertices range hu hv paints_sliver
  refine ⟨range, hu, hv, paints_sliver, u, v, samples, last.trans (Int.lt_add_one_iff.1 (Int.floor_lt.2 ?_))⟩
  rw [margin, steep]
  norm_num [greatest, least, sliver]

/-- That the pixel shows texel 15 is farther from the range of the vertices than a texel. -/
theorem samples_past_vertices :
    ¬∀ (t : Triangle) (X Y u v : Int), (∀ p ∈ t.vertices, (-8192 ≤ p.x ∧ p.x ≤ 8191) ∧ -8192 ≤ p.y ∧ p.y ≤ 8191) →
      t.HalfWords (·.u) → t.HalfWords (·.v) → t.Samples X Y u v →
        (t.least (·.u) / 8 - 1 ≤ u ∧ u ≤ t.greatest (·.u) / 8 + 1) ∧
          t.least (·.v) / 8 - 1 ≤ v ∧ v ≤ t.greatest (·.v) / 8 + 1 := by
  intro within
  have shown : sliver.texelAt (·.u) 1 1 = 15 := by
    rw [texelAt, sorted_sliver]
    norm_num [Gradient.ofTriangle, Gradient.atPixel, slope, ratio, reciprocal_of_pos, reciprocal_of_neg, wrap32, sliver]
  have samples : sliver.Samples 1 1 15 (sliver.texelAt (·.v) 1 1) := samples_iff.2 ⟨paints_sliver, shown.symm, rfl⟩
  exact absurd (within sliver 1 1 _ _ (by decide) (by decide) (by decide) samples).1.2 (by decide)

end Triangle

end Redraw

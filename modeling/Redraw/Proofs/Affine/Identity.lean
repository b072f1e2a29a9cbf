import Redraw.Proofs.Affine.Plane

/-!
# Textures that are laid on as they are

Where the texture coordinates of the vertices are their positions, moved by whole texels, a textured fill copies the texture:
each pixel shows the texel at its own place, moved alike (`Triangle.fill_copies_texture`). The planes of such a triangle are
not exact. Their steps are off by what the width of the run through the middle vertex lost, but the farther a pixel can be
from the long edge, the less that is (`Triangle.Weighs.abs_mul_lead_lt`), so that no value is half a texel off.
-/

namespace Redraw

namespace Triangle

variable {t : Triangle} {coordinate : Vertex → Int} {X Y m : Int} {β γ : ℚ}

/-- The error of a step that is made up to the pixel, if it is small over the run through the middle vertex. -/
theorem Weighs.abs_mul_lead_lt (weighs : t.Weighs X Y β γ) (proper : t.Proper) {e : Int}
    (thin : t.runWidth = 0 → |e| ≤ 0x10000) (wide : t.runWidth ≠ 0 → |e * t.runWidth| ≤ 3 * |t.runWidth| + 0x8000) :
    |e * lead (·.x) t.a t.c (X * 8 + 4) (Y * 8 + 4)| < 0x38000 * 0x10000 := by
  obtain ⟨-, width⟩ := proper.abs_run_sub_le
  have bounds : |e| * |t.runWidth| ≤ 3 * |t.runWidth| + 0x8000 ∧ |e| ≤ 0x14000 := by
    by_cases none : t.runWidth = 0
    · rw [none, abs_zero, mul_zero]
      exact ⟨by decide, (thin none).trans (by decide)⟩
    · have run := wide none
      rw [abs_mul] at run
      have all : |e| ≤ |e| * |t.runWidth| := le_mul_of_one_le_right (abs_nonneg e) (Int.one_le_abs none)
      exact ⟨run, by omega⟩
  rw [abs_mul]
  calc |e| * |lead (·.x) t.a t.c (X * 8 + 4) (Y * 8 + 4)| ≤ |e| * (|t.runWidth| * 0x10000 + 0x18003) :=
        mul_le_mul_of_nonneg_left (weighs.abs_lead_le proper) (abs_nonneg e)
    _ = |e| * |t.runWidth| * 0x10000 + |e| * 0x18003 := by ring
    _ < 0x38000 * 0x10000 := by omega

/-- The error of a value at a pixel, if it comes from the step along the row, the slope down the rows and the rounding of the
latter. -/
theorem Covers.abs_lt_of_error (covers : t.Covers 1 X Y) (proper : t.Proper) {error e e' r : Int}
    (thin : t.runWidth = 0 → |e| ≤ 0x10000) (wide : t.runWidth ≠ 0 → |e * t.runWidth| ≤ 3 * |t.runWidth| + 0x8000)
    (slope : |e'| ≤ 1) (start : 0 ≤ r) (stop : r < 0x10000)
    (sum : error * 0x10000 = e * lead (·.x) t.a t.c (X * 8 + 4) (Y * 8 + 4) + e' * (Y * 8 + 4 - t.a.y) * 0x10000 +
      r * (Y * 8 + 4 - t.a.y)) : |error| < 4 * 0x10000 := by
  obtain ⟨β, γ, weighs⟩ := covers.exists_weights proper
  have step := abs_lt.1 (weighs.abs_mul_lead_lt proper thin wide)
  have turned := abs_le.1 (covers.abs_mul_height_le proper slope)
  have cut := abs_le.1 (covers.abs_mul_height_le proper ((abs_of_nonneg start).trans_le stop.le))
  rw [abs_lt]
  omega

theorem Covers.abs_atPixel_column_lt (covers : t.Covers 1 X Y) (proper : t.Proper)
    (maps : ∀ p ∈ t.vertices, coordinate p = p.x + 8 * m) :
    |(Gradient.ofTriangle t coordinate).atPixel t.a X Y - ((X + m) * 8 + 4) * 0x10000| < 4 * 0x10000 := by
  obtain ⟨ha, hb, hc⟩ := forall_mem_vertices.1 maps
  obtain ⟨r, start, stop, value⟩ := Gradient.exists_atPixel_mul t coordinate X Y
  have rise : t.rise coordinate = t.rise (·.x) := by
    unfold rise lead
    rw [ha, hb, hc]
    ring_nf
  refine covers.abs_lt_of_error proper (e := (Gradient.ofTriangle t coordinate).dx - 0x10000) (fun thin => ?_)
    (fun wide => ?_) (abs_zero.trans_le zero_le_one) start stop ?_
  · rw [Gradient.dx_eq_zero thin]
    decide
  · have height := proper.moderate.height _ t.a_mem_vertices _ t.c_mem_vertices
    have size := proper.abs_run_le
    have rounded := abs_le.1 proper.abs_run_sub_le.1
    have quotient := abs_lt.1 (Gradient.abs_dx_mul_sub_lt (n := 2) wide (rise ▸ size.trans (by omega)))
    rw [rise] at quotient
    rw [sub_mul, abs_le]
    omega
  · rw [ha, hc] at value
    rw [sub_mul, value]
    unfold lead
    ring_nf

theorem abs_slope_self_sub_le {height : Int} (down : 0 < height) (low : height ≤ 0x4000) :
    |slope height height - 0x10000| ≤ 1 := by
  have error := abs_slope_mul_sub_lt_two down ((abs_of_pos down).trans_le low)
  rw [mul_comm _ 0x10000, ← sub_mul, abs_mul, abs_of_pos down] at error
  exact Int.lt_add_one_iff.1 (lt_of_mul_lt_mul_right error down.le)

theorem Covers.abs_atPixel_row_lt (covers : t.Covers 1 X Y) (proper : t.Proper)
    (maps : ∀ p ∈ t.vertices, coordinate p = p.y + 8 * m) :
    |(Gradient.ofTriangle t coordinate).atPixel t.a X Y - ((Y + m) * 8 + 4) * 0x10000| < 4 * 0x10000 := by
  obtain ⟨ha, hb, hc⟩ := forall_mem_vertices.1 maps
  obtain ⟨r, start, stop, value⟩ := Gradient.exists_atPixel_mul t coordinate X Y
  have height := proper.moderate.height _ t.a_mem_vertices _ t.c_mem_vertices
  have slope := abs_slope_self_sub_le (sub_pos.2 proper.ac) height.le
  have fall : coordinate t.c - coordinate t.a = t.c.y - t.a.y := by
    rw [ha, hc]
    ring
  refine covers.abs_lt_of_error proper (e := (Gradient.ofTriangle t coordinate).dx) (fun thin => ?_) (fun wide => ?_) slope
    start stop ?_
  · rw [Gradient.dx_eq_zero thin]
    decide
  · have rise : t.rise coordinate = -((Redraw.slope (t.c.y - t.a.y) (t.c.y - t.a.y) - 0x10000) * (t.b.y - t.a.y)) := by
      unfold rise lead
      rw [fall, ha, hb]
      ring
    have size : |t.rise coordinate| ≤ 1 * 0x4000 := by
      have bc := proper.bc
      have ab := sub_nonneg.2 proper.ab
      rw [rise, abs_neg, abs_mul, abs_of_nonneg ab]
      exact mul_le_mul slope (by omega) ab (by decide)
    have quotient := abs_lt.1 (Gradient.abs_dx_mul_sub_lt (n := 1) wide (size.trans (by decide)))
    rw [abs_le] at size ⊢
    omega
  · rw [fall, ha] at value
    rw [sub_mul, value]
    ring

/-- A value within half a texel of the center of a texel is shown as that texel. -/
theorem texelAt_eq {Z : Int} (near : |(Gradient.ofTriangle t.sorted coordinate).atPixel t.sorted.a X Y -
    (Z * 8 + 4) * 0x10000| < 4 * 0x10000) (lo : -2147483648 ≤ Z) (hi : Z < 2147483648) : t.texelAt coordinate X Y = Z := by
  rw [abs_lt] at near
  rw [texelAt, wrap32_eq_self] <;> omega

/-- Texture coordinates that are the positions, moved by `m` columns and `n` rows of texels. -/
def LaidOn (t : Triangle) (m n : Int) : Prop := ∀ p ∈ t.vertices, p.u = p.x + 8 * m ∧ p.v = p.y + 8 * n

instance (t : Triangle) (m n : Int) : Decidable (t.LaidOn m n) := List.decidableBAll ..

/-- **Copied as it is.** Take a triangle with vertices within 1024 logical pixels of the origin, and texture coordinates that
are their positions moved by whole texels and fit into words. At scale one a textured fill succeeds, it gives each pixel that
a plain fill sets the texel at the place of the pixel, moved alike, and it changes no other pixel. -/
theorem fill_copies_texture {m n : Int}
    (range : ∀ p ∈ t.vertices, (-8192 ≤ p.x ∧ p.x ≤ 8191) ∧ -8192 ≤ p.y ∧ p.y ≤ 8191)
    (fits : ∀ p ∈ t.vertices, (-2147483648 ≤ p.u ∧ p.u < 2147483648) ∧ -2147483648 ≤ p.v ∧ p.v < 2147483648)
    (laid : t.LaidOn m n) {c : Canvas} (native : c.scale = 1) (texture : Texture) :
    ∃ d, c.fillAffineTriangle? t texture = .ok d ∧ ∀ X Y,
      (t.Paints 1 X Y → d.pixel? X Y = some (texture (X + m) (Y + n))) ∧
        (¬t.Paints 1 X Y → d.pixel? X Y = c.pixel? X Y) := by
  refine ⟨_, Canvas.fillAffineTriangle?_native native t texture, fun X Y => ?_⟩
  rw [Canvas.pixel?_fillAffineTriangle native, paints_iff]
  refine ⟨fun painted => ?_, fun out => if_neg out⟩
  obtain ⟨⟨left, right, top, bottom⟩, covers⟩ := id painted
  have proper := proper_sorted range covers
  have sorted : ∀ p ∈ t.sorted.vertices, p.u = p.x + 8 * m ∧ p.v = p.y + 8 * n :=
    fun p mem => laid p ((perm_sorted t).subset mem)
  unfold Screen.width at right
  unfold Screen.height at bottom
  obtain ⟨hu, hv⟩ := laid _ t.a_mem_vertices
  have start := range _ t.a_mem_vertices
  have word := fits _ t.a_mem_vertices
  rw [if_pos painted,
    texelAt_eq (covers.abs_atPixel_column_lt proper fun p mem => (sorted p mem).1) (by omega) (by omega),
    texelAt_eq (covers.abs_atPixel_row_lt proper fun p mem => (sorted p mem).2) (by omega) (by omega)]

/-- The run through the middle vertex of this sliver is nearly half an eighth wide, and it is rounded to nothing. -/
theorem fill_copies_texture_sliver :
    let t : Triangle := ⟨⟨-11, -4, 29, -20⟩, ⟨8, 6, 48, -10⟩, ⟨-2, 1, 38, -15⟩⟩
    (∀ p ∈ t.vertices, (-8192 ≤ p.x ∧ p.x ≤ 8191) ∧ -8192 ≤ p.y ∧ p.y ≤ 8191) ∧
      (∀ p ∈ t.vertices, (-2147483648 ≤ p.u ∧ p.u < 2147483648) ∧ -2147483648 ≤ p.v ∧ p.v < 2147483648) ∧
      t.LaidOn 5 (-2) ∧ t.sorted.runWidth = 0 ∧ ∀ texture : Texture,
        ∃ d, (Canvas.blank 1).fillAffineTriangle? t texture = .ok d ∧ d.pixel? 0 0 = some (texture 5 (-2)) := by
  intro t
  have range : ∀ p ∈ t.vertices, (-8192 ≤ p.x ∧ p.x ≤ 8191) ∧ -8192 ≤ p.y ∧ p.y ≤ 8191 := by decide
  have fits : ∀ p ∈ t.vertices, (-2147483648 ≤ p.u ∧ p.u < 2147483648) ∧ -2147483648 ≤ p.v ∧ p.v < 2147483648 := by decide
  have laid : t.LaidOn 5 (-2) := by decide
  have sorted : t.sorted = ⟨⟨-11, -4, 29, -20⟩, ⟨-2, 1, 38, -15⟩, ⟨8, 6, 48, -10⟩⟩ := by decide
  have thin : t.sorted.runWidth = 0 := by
    rw [sorted]
    simp [runWidth, rise, lead, slope, ratio, reciprocal_of_pos, wrap32]
  have covers : t.sorted.Covers 1 0 0 := by
    rw [sorted]
    simp [covers_iff, leftEdge, rightEdge, onLeft, middleOnLeft, shortEdge, longEdge, Edge.column, Edge.xAt, Edge.between,
      slope, ratio, reciprocal_of_pos, Vertex.row, toOutput, firstPixel]
  refine ⟨range, fits, laid, thin, fun texture => ?_⟩
  obtain ⟨d, filled, shows⟩ := fill_copies_texture range fits laid (c := .blank 1) rfl texture
  exact ⟨d, filled, (shows 0 0).1 (paints_iff.2 ⟨by decide, covers⟩)⟩

end Triangle

end Redraw

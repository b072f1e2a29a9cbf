import Redraw.Proofs.Triangle.Accuracy

/-!
# Where a pixel lies in its triangle

At scale one an edge is walked without any rounding but that of its slope, so a column is judged by how far its center is
past the edge at that height (`Edge.column_le_iff_lead`). A covered pixel therefore lies between the two edges of its row,
and close to a point of the exact triangle at the height of its center (`Triangle.Covers.exists_weights`). The point is given by
the weights of the vertices, and so are the values that coordinates have there.
-/

namespace Redraw

/-! ## Edges at scale one -/

/-- How far a value is past the one that a coordinate has on the edge from `u` to `w`, as the edge is walked, at the height
`y`. It has sixteen fraction bits. -/
def lead (coordinate : Vertex → Int) (u w : Vertex) (value y : Int) : Int :=
  (value - coordinate u) * 0x10000 - slope (coordinate w - coordinate u) (w.y - u.y) * (y - u.y)

variable {u w : Vertex} {X Y : Int}

/-- A walked edge arrives close to its lower vertex. -/
theorem abs_lead_lower_lt {coordinate : Vertex → Int} {n : Int} (down : u.y < w.y)
    (size : |coordinate w - coordinate u| ≤ n * 0x4000) :
    |lead coordinate u w (coordinate w) w.y| < (n + 1) * (w.y - u.y) := by
  rw [lead, abs_sub_comm]
  exact abs_slope_mul_sub_lt (sub_pos.2 down) size

theorem Vertex.row_one_le_iff {p : Vertex} : p.row 1 ≤ Y ↔ p.y ≤ Y * 8 + 4 := by
  rw [row_le_iff, toOutput]
  omega

theorem Vertex.lt_row_one_iff {p : Vertex} : Y < p.row 1 ↔ Y * 8 + 4 < p.y := by
  rw [← not_le, row_one_le_iff, not_le]

theorem Edge.column_le_iff_lead : (between u w 1).column Y ≤ X ↔ -8 < lead (·.x) u w (X * 8 + 4) (Y * 8 + 4) := by
  have way : Redraw.slope (w.x - u.x) (w.y - u.y) * (Y * 0x10000 + 0x8000 - toOutput u.y 1) =
      Redraw.slope (w.x - u.x) (w.y - u.y) * (Y * 8 + 4 - u.y) * 0x2000 := by
    unfold toOutput
    push_cast
    ring
  rw [column, firstPixel, xAt_between, way, toOutput, lead]
  generalize Redraw.slope (w.x - u.x) (w.y - u.y) * (Y * 8 + 4 - u.y) = z
  omega

theorem Edge.lt_column_iff_lead : X < (between u w 1).column Y ↔ lead (·.x) u w (X * 8 + 4) (Y * 8 + 4) ≤ -8 := by
  rw [← not_le, column_le_iff_lead, not_lt]

theorem exists_part_of_between {d gap : Int} (between : 0 ≤ d ∧ d ≤ gap ∨ gap ≤ d ∧ d ≤ 0) :
    ∃ θ : ℚ, 0 ≤ θ ∧ θ ≤ 1 ∧ θ * gap = d := by
  refine ⟨d / gap, ?_, ?_, div_mul_cancel_of_imp fun none => ?_⟩
  · rcases between with ⟨lo, hi⟩ | ⟨hi, lo⟩
    · exact div_nonneg (Int.cast_nonneg lo) (Int.cast_nonneg (lo.trans hi))
    · exact div_nonneg_of_nonpos (Int.cast_nonpos.2 lo) (Int.cast_nonpos.2 (hi.trans lo))
  · rcases between with ⟨lo, hi⟩ | ⟨hi, lo⟩
    · exact div_le_one_of_le₀ (Int.cast_le.2 hi) (Int.cast_nonneg (lo.trans hi))
    · exact div_le_one_of_ge (Int.cast_le.2 hi) (Int.cast_nonpos.2 (hi.trans lo))
  · rw [Int.cast_eq_zero] at none ⊢
    omega

/-- A pixel between two edges is close to a part of their distance. -/
theorem exists_part {d gap : Int} (between : -8 < d ∧ d - gap ≤ -8 ∨ d ≤ -8 ∧ -8 < d - gap) :
    ∃ θ : ℚ, 0 ≤ θ ∧ θ ≤ 1 ∧ |(d - θ * gap : ℚ)| ≤ 7 := by
  -- unless it is close to one of the edges, its center is between them
  by_cases start : |d| ≤ 7
  · refine ⟨0, le_rfl, zero_le_one, ?_⟩
    rw [zero_mul, sub_zero]
    exact_mod_cast start
  by_cases stop : |d - gap| ≤ 7
  · refine ⟨1, zero_le_one, le_rfl, ?_⟩
    rw [one_mul]
    exact_mod_cast stop
  rw [abs_le] at start stop
  have inner : 0 ≤ d ∧ d ≤ gap ∨ gap ≤ d ∧ d ≤ 0 := by omega
  obtain ⟨θ, nonneg, le_one, part⟩ := exists_part_of_between inner
  refine ⟨θ, nonneg, le_one, ?_⟩
  rw [part, sub_self, abs_zero]
  norm_num

namespace Triangle

variable {t : Triangle} {β γ : ℚ}

/-- A triangle of moderate size that goes from its upper vertex down to its lower one. -/
structure Proper (t : Triangle) : Prop where
  moderate : t.Moderate
  ab : t.a.y ≤ t.b.y
  bc : t.b.y ≤ t.c.y
  ac : t.a.y < t.c.y

theorem proper_sorted (range : ∀ p ∈ t.vertices, (-8192 ≤ p.x ∧ p.x ≤ 8191) ∧ -8192 ≤ p.y ∧ p.y ≤ 8191) {k : Nat}
    (covers : t.sorted.Covers k X Y) : t.sorted.Proper where
  moderate := moderate_sorted range
  ab := Vertex.le_of_not_after (sorted_ordered t).1
  bc := Vertex.le_of_not_after (sorted_ordered t).2
  ac := Vertex.lt_of_row_lt (covers.top.trans_lt covers.bottom)

/-- How far the middle vertex is past the long edge in a coordinate. In that of the columns this is the width of the run
through the vertex. -/
def rise (t : Triangle) (coordinate : Vertex → Int) : Int := lead coordinate t.a t.c (coordinate t.b) t.b.y

/-- Weights of the middle and the lower vertex, with the rest for the upper one, of a point at the height of the pixel centers
of a row. -/
structure Weights (t : Triangle) (Y : Int) (β γ : ℚ) : Prop where
  middle : 0 ≤ β
  lower : 0 ≤ γ
  upper : β + γ ≤ 1
  height : β * (t.b.y - t.a.y) + γ * (t.c.y - t.a.y) = Y * 8 + 4 - t.a.y

theorem Weights.middle_le_one (weights : t.Weights Y β γ) : β ≤ 1 := by
  linarith [weights.lower, weights.upper]

theorem Weights.lower_le_one (weights : t.Weights Y β γ) : γ ≤ 1 := by
  linarith [weights.middle, weights.upper]

/-- The center of a pixel is as far past the long edge as a point, up to the rounding of the edges. -/
structure Weighs (t : Triangle) (X Y : Int) (β γ : ℚ) : Prop extends t.Weights Y β γ where
  near : |(lead (·.x) t.a t.c (X * 8 + 4) (Y * 8 + 4) - β * t.rise (·.x) : ℚ)| ≤ 4 * (t.c.y - t.a.y) + 7

/-- The center of a pixel is past exactly one of the long edge and an edge that is `gap` past it in the row. -/
def Separates (t : Triangle) (X Y gap : Int) : Prop :=
  -8 < lead (·.x) t.a t.c (X * 8 + 4) (Y * 8 + 4) ∧ lead (·.x) t.a t.c (X * 8 + 4) (Y * 8 + 4) - gap ≤ -8 ∨
    lead (·.x) t.a t.c (X * 8 + 4) (Y * 8 + 4) ≤ -8 ∧ -8 < lead (·.x) t.a t.c (X * 8 + 4) (Y * 8 + 4) - gap

/-- In a row where the short edge is past the long one by nearly the part `μ` of the run through the middle vertex. -/
theorem Separates.exists_weights {gap : Int} {μ : ℚ} (separates : t.Separates X Y gap) (proper : t.Proper) (start : 0 ≤ μ)
    (top : μ * (t.b.y - t.a.y) ≤ Y * 8 + 4 - t.a.y) (bottom : μ * (t.c.y - t.b.y) ≤ t.c.y - (Y * 8 + 4))
    (near : |(gap - μ * t.rise (·.x) : ℚ)| ≤ 4 * (t.c.y - t.a.y)) : ∃ β γ, t.Weighs X Y β γ := by
  obtain ⟨θ, nonneg, le_one, rest⟩ := exists_part separates
  have long : (0 : ℚ) < t.c.y - t.a.y := sub_pos.2 (Int.cast_lt.2 proper.ac)
  have ab : (0 : ℚ) ≤ t.b.y - t.a.y := sub_nonneg.2 (Int.cast_le.2 proper.ab)
  have bc : (0 : ℚ) ≤ t.c.y - t.b.y := sub_nonneg.2 (Int.cast_le.2 proper.bc)
  have less : θ * μ ≤ μ := mul_le_of_le_one_left start le_one
  have top : θ * μ * (t.b.y - t.a.y) ≤ Y * 8 + 4 - t.a.y := (mul_le_mul_of_nonneg_right less ab).trans top
  have bottom : θ * μ * (t.c.y - t.b.y) ≤ t.c.y - (Y * 8 + 4) := (mul_le_mul_of_nonneg_right less bc).trans bottom
  refine ⟨θ * μ, (Y * 8 + 4 - t.a.y - θ * μ * (t.b.y - t.a.y)) / (t.c.y - t.a.y),
    ⟨mul_nonneg nonneg start, div_nonneg (by linarith) long.le, ?_, ?_⟩, ?_⟩
  · rw [← le_sub_iff_add_le', div_le_iff₀ long]
    linarith
  · rw [div_mul_cancel₀ _ long.ne']
    ring
  · have near : |θ * (gap - μ * t.rise (·.x) : ℚ)| ≤ 4 * (t.c.y - t.a.y) := by
      rw [abs_mul, abs_of_nonneg nonneg]
      exact (mul_le_of_le_one_left (abs_nonneg _) le_one).trans near
    calc |(lead (·.x) t.a t.c (X * 8 + 4) (Y * 8 + 4) - θ * μ * t.rise (·.x) : ℚ)|
        = |(lead (·.x) t.a t.c (X * 8 + 4) (Y * 8 + 4) - θ * gap) + θ * (gap - μ * t.rise (·.x))| := by ring_nf
      _ ≤ 4 * (t.c.y - t.a.y) + 7 := (abs_add_le _ _).trans (by linarith)

theorem Separates.exists_weights_of_part {gap : Int} (separates : t.Separates X Y gap) (proper : t.Proper) (part fall : Int)
    (start : 0 ≤ part) (down : 0 < fall) (top : part * (t.b.y - t.a.y) ≤ (Y * 8 + 4 - t.a.y) * fall)
    (bottom : part * (t.c.y - t.b.y) ≤ (t.c.y - (Y * 8 + 4)) * fall)
    (near : |gap * fall - part * t.rise (·.x)| ≤ 4 * (t.c.y - t.a.y) * fall) : ∃ β γ, t.Weighs X Y β γ := by
  have down : (0 : ℚ) < fall := Int.cast_pos.2 down
  obtain ⟨μ, share⟩ : ∃ μ : ℚ, part = μ * fall := ⟨_, (div_mul_cancel₀ _ down.ne').symm⟩
  rw [← Int.cast_le (R := ℚ)] at top bottom near
  push_cast [share] at top bottom near
  refine separates.exists_weights proper (nonneg_of_mul_nonneg_left (share ▸ Int.cast_nonneg start) down)
    (le_of_mul_le_mul_right ?_ down) (le_of_mul_le_mul_right ?_ down) (le_of_mul_le_mul_right ?_ down)
  · rwa [mul_right_comm]
  · rwa [mul_right_comm]
  · rwa [mul_right_comm, ← sub_mul, abs_mul, abs_of_pos down] at near

/-- Above the middle vertex the gap is the part of the run that the edges have come down. -/
theorem exists_weights_upper (proper : t.Proper) (top : t.a.y ≤ Y * 8 + 4) (bottom : Y * 8 + 4 < t.b.y)
    (separates : t.Separates X Y
      (lead (·.x) t.a t.c (X * 8 + 4) (Y * 8 + 4) - lead (·.x) t.a t.b (X * 8 + 4) (Y * 8 + 4))) :
    ∃ β γ, t.Weighs X Y β γ := by
  have short : t.a.y < t.b.y := top.trans_lt bottom
  have bc := proper.bc
  have error : |lead (·.x) t.a t.b t.b.x t.b.y| < 2 * (t.b.y - t.a.y) :=
    abs_lead_lower_lt (n := 1) short (proper.moderate.width _ t.a_mem_vertices _ t.b_mem_vertices)
  have start : 0 ≤ Y * 8 + 4 - t.a.y := sub_nonneg.2 top
  refine separates.exists_weights_of_part proper (Y * 8 + 4 - t.a.y) (t.b.y - t.a.y) start (sub_pos.2 short) le_rfl ?_ ?_
  · rw [mul_comm]
    exact mul_le_mul (by omega) (by omega) start (by omega)
  · have rest : (lead (·.x) t.a t.c (X * 8 + 4) (Y * 8 + 4) - lead (·.x) t.a t.b (X * 8 + 4) (Y * 8 + 4)) * (t.b.y - t.a.y) -
        (Y * 8 + 4 - t.a.y) * t.rise (·.x) = -((Y * 8 + 4 - t.a.y) * lead (·.x) t.a t.b t.b.x t.b.y) := by
      unfold rise lead
      ring
    rw [rest, abs_neg, abs_mul, abs_of_nonneg start, mul_comm]
    exact mul_le_mul (by omega) (by omega) start (by omega)

/-- Below the middle vertex the gap is the part of the run that the edges have yet to come down. -/
theorem exists_weights_lower (proper : t.Proper) (top : t.b.y ≤ Y * 8 + 4) (bottom : Y * 8 + 4 < t.c.y)
    (separates : t.Separates X Y
      (lead (·.x) t.a t.c (X * 8 + 4) (Y * 8 + 4) - lead (·.x) t.b t.c (X * 8 + 4) (Y * 8 + 4))) :
    ∃ β γ, t.Weighs X Y β γ := by
  have short : t.b.y < t.c.y := top.trans_lt bottom
  have ab := proper.ab
  have error : |lead (·.x) t.a t.c t.c.x t.c.y| < 2 * (t.c.y - t.a.y) :=
    abs_lead_lower_lt (n := 1) proper.ac (proper.moderate.width _ t.a_mem_vertices _ t.c_mem_vertices)
  have error' : |lead (·.x) t.b t.c t.c.x t.c.y| < 2 * (t.c.y - t.b.y) :=
    abs_lead_lower_lt (n := 1) short (proper.moderate.width _ t.b_mem_vertices _ t.c_mem_vertices)
  have start : 0 ≤ Y * 8 + 4 - t.b.y := sub_nonneg.2 top
  refine separates.exists_weights_of_part proper (t.c.y - (Y * 8 + 4)) (t.c.y - t.b.y) (by omega) (sub_pos.2 short) ?_ le_rfl ?_
  · rw [mul_comm]
    exact mul_le_mul (by omega) (by omega) (by omega) (by omega)
  · have rest : (lead (·.x) t.a t.c (X * 8 + 4) (Y * 8 + 4) - lead (·.x) t.b t.c (X * 8 + 4) (Y * 8 + 4)) * (t.c.y - t.b.y) -
        (t.c.y - (Y * 8 + 4)) * t.rise (·.x) =
        (lead (·.x) t.a t.c t.c.x t.c.y - lead (·.x) t.b t.c t.c.x t.c.y) * (Y * 8 + 4 - t.b.y) := by
      unfold rise lead
      ring
    rw [rest, abs_mul, abs_of_nonneg start]
    rw [abs_lt] at error error'
    exact mul_le_mul (abs_le.2 ⟨by omega, by omega⟩) (by omega) start (by omega)

theorem Covers.center_between (covers : t.Covers 1 X Y) : t.a.y ≤ Y * 8 + 4 ∧ Y * 8 + 4 < t.c.y :=
  ⟨Vertex.row_one_le_iff.1 covers.top, Vertex.lt_row_one_iff.1 covers.bottom⟩

theorem Covers.exists_weights_long (covers : t.Covers 1 X Y) : ∃ γ, t.Weights Y 0 γ := by
  obtain ⟨top, bottom⟩ := covers.center_between
  have top : (t.a.y : ℚ) ≤ Y * 8 + 4 := by exact_mod_cast top
  have bottom : (Y * 8 + 4 : ℚ) < t.c.y := by exact_mod_cast bottom
  have down : (0 : ℚ) < t.c.y - t.a.y := by linarith
  refine ⟨(Y * 8 + 4 - t.a.y) / (t.c.y - t.a.y), le_rfl, div_nonneg (by linarith) down.le, ?_, ?_⟩
  · rw [zero_add, div_le_one down]
    linarith
  · rw [zero_mul, zero_add, div_mul_cancel₀ _ down.ne']

/-- A covered pixel lies close to a point of the triangle at the height of its center. -/
theorem Covers.exists_weights (covers : t.Covers 1 X Y) (proper : t.Proper) : ∃ β γ, t.Weighs X Y β γ := by
  obtain ⟨top, bottom⟩ := covers.center_between
  have one : (t.longEdge 1).column Y ≤ X ∧ X < (t.shortEdge 1 Y).column Y ∨
      X < (t.longEdge 1).column Y ∧ (t.shortEdge 1 Y).column Y ≤ X := by
    have left := covers.left
    have right := covers.right
    unfold leftEdge at left
    unfold rightEdge at right
    split at left <;> simp_all
  by_cases upper : Y < t.b.row 1
  · rw [longEdge, shortEdge, if_pos upper] at one
    simp only [Edge.column_le_iff_lead, Edge.lt_column_iff_lead] at one
    refine exists_weights_upper proper top (Vertex.lt_row_one_iff.1 upper) ?_
    rwa [Separates, sub_sub_cancel]
  · rw [longEdge, shortEdge, if_neg upper] at one
    simp only [Edge.column_le_iff_lead, Edge.lt_column_iff_lead] at one
    refine exists_weights_lower proper (Vertex.row_one_le_iff.1 (not_lt.1 upper)) bottom ?_
    rwa [Separates, sub_sub_cancel]

end Triangle

end Redraw

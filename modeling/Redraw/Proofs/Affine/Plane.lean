import Redraw.Proofs.Affine.Samples
import Redraw.Proofs.Affine.Weights

/-!
# How far a plane is off

The plane of a coordinate is what the coordinate has on the long edge, and from there a step for each eighth of a pixel
(`Gradient.exists_atPixel_mul`). The step is the rise of the coordinate along the run through the middle vertex, divided by
the width of the run. The width is rounded to whole eighths before (`Triangle.Proper.abs_run_sub_le`) and the quotient
afterwards (`Gradient.abs_dx_mul_sub_lt`). A run that is rounded to no width has no step.
-/

namespace Redraw

namespace Triangle

variable {t : Triangle} {coordinate : Vertex → Int} {X Y m n : Int} {β γ : ℚ}

/-- The width of the run through the middle vertex in eighths of a pixel, negative if the run ends at the long edge. -/
def runWidth (t : Triangle) : Int := wrap32 ((t.rise (·.x) + 0x8000) / 0x10000)

/-- A rise is that of the vertices, up to the slope of the long edge. -/
theorem abs_rise_le (proper : t.Proper) (coordinate : Vertex → Int)
    (size : |coordinate t.c - coordinate t.a| ≤ n * 0x4000) (upper : |coordinate t.b - coordinate t.a| ≤ m)
    (lower : |coordinate t.b - coordinate t.c| ≤ m) :
    |t.rise coordinate| ≤ m * 0x10000 + (n + 1) * (t.c.y - t.a.y) := by
  have ab := proper.ab
  have bc := proper.bc
  have down := sub_pos.2 proper.ac
  have error := (abs_lead_lower_lt proper.ac size).le
  have mean : |(coordinate t.b - coordinate t.a) * (t.c.y - t.b.y) + (coordinate t.b - coordinate t.c) * (t.b.y - t.a.y)| ≤
      m * (t.c.y - t.a.y) :=
    calc _ ≤ |coordinate t.b - coordinate t.a| * (t.c.y - t.b.y) + |coordinate t.b - coordinate t.c| * (t.b.y - t.a.y) := by
          refine (abs_add_le ..).trans_eq ?_
          rw [abs_mul, abs_mul, abs_of_nonneg (sub_nonneg.2 bc), abs_of_nonneg (sub_nonneg.2 ab)]
      _ ≤ m * (t.c.y - t.b.y) + m * (t.b.y - t.a.y) := add_le_add
          (mul_le_mul_of_nonneg_right upper (sub_nonneg.2 bc)) (mul_le_mul_of_nonneg_right lower (sub_nonneg.2 ab))
      _ = m * (t.c.y - t.a.y) := by ring
  have turned : |lead coordinate t.a t.c (coordinate t.c) t.c.y * (t.b.y - t.a.y)| ≤
      (n + 1) * (t.c.y - t.a.y) * (t.c.y - t.a.y) := by
    rw [abs_mul, abs_of_nonneg (sub_nonneg.2 ab)]
    exact mul_le_mul error (sub_le_sub_right bc _) (sub_nonneg.2 ab) ((abs_nonneg _).trans error)
  have parts : t.rise coordinate * (t.c.y - t.a.y) =
      ((coordinate t.b - coordinate t.a) * (t.c.y - t.b.y) + (coordinate t.b - coordinate t.c) * (t.b.y - t.a.y)) * 0x10000 +
        lead coordinate t.a t.c (coordinate t.c) t.c.y * (t.b.y - t.a.y) := by
    unfold rise lead
    ring
  refine le_of_mul_le_mul_right ?_ down
  rw [← abs_of_pos down, ← abs_mul, parts, abs_of_pos down]
  refine (abs_add_le ..).trans ?_
  rw [abs_mul, show |(0x10000 : Int)| = 0x10000 from rfl]
  linarith

/-- The rise of a coordinate that differs by a half word at most. -/
theorem Proper.abs_rise_le (proper : t.Proper)
    (apart : ∀ p ∈ t.vertices, ∀ q ∈ t.vertices, |coordinate q - coordinate p| ≤ 0x10000) :
    |t.rise coordinate| ≤ 5 * 0x40000000 := by
  have ha := t.a_mem_vertices
  have hb := t.b_mem_vertices
  have hc := t.c_mem_vertices
  have height := proper.moderate.height _ ha _ hc
  have size := Triangle.abs_rise_le proper coordinate (n := 4) (apart _ ha _ hc) (apart _ ha _ hb) (apart _ hc _ hb)
  omega

theorem Proper.abs_run_le (proper : t.Proper) : |t.rise (·.x)| ≤ 0x4000 * 0x10000 + 2 * (t.c.y - t.a.y) := by
  have ha := t.a_mem_vertices
  have hb := t.b_mem_vertices
  have hc := t.c_mem_vertices
  have width := proper.moderate.width
  exact Triangle.abs_rise_le proper (·.x) (n := 1) (width _ ha _ hc) (width _ ha _ hb) (width _ hc _ hb)

/-- The width of a run is rounded to the nearest, and it never wraps around. -/
theorem Proper.abs_run_sub_le (proper : t.Proper) :
    |t.rise (·.x) - t.runWidth * 0x10000| ≤ 0x8000 ∧ |t.runWidth| ≤ 0x4000 := by
  have size := abs_le.1 proper.abs_run_le
  have height := proper.moderate.height _ t.a_mem_vertices _ t.c_mem_vertices
  rw [runWidth, wrap32_eq_self, abs_le, abs_le] <;> omega

/-- A covered pixel is at most about as far past the long edge as the middle vertex. -/
theorem Weighs.abs_lead_le (weighs : t.Weighs X Y β γ) (proper : t.Proper) :
    |lead (·.x) t.a t.c (X * 8 + 4) (Y * 8 + 4)| ≤ |t.runWidth| * 0x10000 + 0x18003 := by
  have height := proper.moderate.height _ t.a_mem_vertices _ t.c_mem_vertices
  obtain ⟨rounded, -⟩ := proper.abs_run_sub_le
  have run : |t.rise (·.x)| ≤ |t.runWidth| * 0x10000 + 0x8000 := by
    rw [abs_le] at rounded ⊢
    rcases abs_cases t.runWidth with ⟨width, sign⟩ | ⟨width, sign⟩ <;> omega
  have near := weighs.near
  generalize lead (·.x) t.a t.c (X * 8 + 4) (Y * 8 + 4) = d at *
  have part : |β * t.rise (·.x)| ≤ |t.rise (·.x)| := by
    push_cast
    rw [abs_mul, abs_of_nonneg weighs.middle]
    exact mul_le_of_le_one_left (abs_nonneg _) weighs.middle_le_one
  have total : |(d : ℚ)| ≤ (|t.rise (·.x)| + (4 * (t.c.y - t.a.y) + 7) : Int) := by
    push_cast at part ⊢
    calc |(d : ℚ)| = |(d - β * t.rise (·.x)) + β * t.rise (·.x)| := by rw [sub_add_cancel]
      _ ≤ _ := (abs_add_le _ _).trans (by linarith)
  have total : |d| ≤ |t.rise (·.x)| + (4 * (t.c.y - t.a.y) + 7) := by exact_mod_cast total
  omega

theorem Covers.abs_mul_height_le (covers : t.Covers 1 X Y) (proper : t.Proper) {e n : Int} (size : |e| ≤ n) :
    |e * (Y * 8 + 4 - t.a.y)| ≤ n * 0x4000 := by
  have height := proper.moderate.height _ t.a_mem_vertices _ t.c_mem_vertices
  obtain ⟨top, bottom⟩ := covers.center_between
  rw [abs_mul, abs_of_nonneg (sub_nonneg.2 top)]
  exact mul_le_mul size (by omega) (sub_nonneg.2 top) ((abs_nonneg e).trans size)

end Triangle

namespace Gradient

variable {t : Triangle} {coordinate : Vertex → Int} {n : Int}

theorem dx_ofTriangle : (ofTriangle t coordinate).dx = t.rise coordinate * ratio 1 t.runWidth / 0x40000000 := by
  unfold ofTriangle Triangle.runWidth Triangle.rise lead
  simp only
  ring_nf

theorem abs_dx_le (size : |t.rise coordinate| ≤ n * 0x40000000) : |(ofTriangle t coordinate).dx| ≤ n * 0x40000000 := by
  have product := abs_le.1 (abs_mul_le size (abs_ratio_one_le t.runWidth))
  rw [dx_ofTriangle, abs_le]
  omega

theorem dx_eq_zero (thin : t.runWidth = 0) : (ofTriangle t coordinate).dx = 0 := by
  rw [dx_ofTriangle, thin, ratio, reciprocal_zero, mul_zero, mul_zero, Int.zero_ediv]

theorem abs_dx_mul_sub_lt (wide : t.runWidth ≠ 0) (size : |t.rise coordinate| ≤ n * 0x40000000) :
    |(ofTriangle t coordinate).dx * t.runWidth - t.rise coordinate| < (n + 1) * |t.runWidth| := by
  rw [dx_ofTriangle]
  exact abs_ratio_one_mul_sub_lt wide size

theorem exists_atPixel_mul (t : Triangle) (coordinate : Vertex → Int) (X Y : Int) :
    ∃ r, 0 ≤ r ∧ r < 0x10000 ∧ (ofTriangle t coordinate).atPixel t.a X Y * 0x10000 =
      (coordinate t.a * 0x10000 + slope (coordinate t.c - coordinate t.a) (t.c.y - t.a.y) * (Y * 8 + 4 - t.a.y)) * 0x10000 +
        (ofTriangle t coordinate).dx * lead (·.x) t.a t.c (X * 8 + 4) (Y * 8 + 4) + r * (Y * 8 + 4 - t.a.y) := by
  have turned := Int.mul_ediv_add_emod ((ofTriangle t coordinate).dx * slope (t.c.x - t.a.x) (t.c.y - t.a.y)) 0x10000
  have origin : (ofTriangle t coordinate).origin = coordinate t.a * 0x10000 := rfl
  have down : (ofTriangle t coordinate).dy = slope (coordinate t.c - coordinate t.a) (t.c.y - t.a.y) -
    (ofTriangle t coordinate).dx * slope (t.c.x - t.a.x) (t.c.y - t.a.y) / 0x10000 := rfl
  refine ⟨(ofTriangle t coordinate).dx * slope (t.c.x - t.a.x) (t.c.y - t.a.y) % 0x10000, Int.emod_nonneg _ (by decide),
    Int.emod_lt_of_pos _ (by decide), ?_⟩
  rw [atPixel, lead, origin, down]
  linear_combination (-(Y * 8 + 4 - t.a.y)) * turned

end Gradient

end Redraw

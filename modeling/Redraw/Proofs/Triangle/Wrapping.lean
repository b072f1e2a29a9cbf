import Redraw.Proofs.Affine.Footprint
import Redraw.Proofs.Wrapping

/-!
# Edges and planes in words

The edges of a triangle and the planes of its coordinates are written here with every step in a word or a long word
(`InWords.edge`, `InWords.gradient`). Positions of half words leave room for an edge at any scale (`InWords.edge_eq`), and for
where it is in its own rows up to scale `0x10000` (`InWords.xAt_eq`); a picture at a larger scale has more than `2 ^ 47` bytes.
For a plane, two products are large: the rise of the coordinate along the run through the middle vertex times a reciprocal,
and the step times a slope. Both have at most 63 bits if the vertices are at most 2048 logical pixels apart and the coordinate
differs by no more than a half word (`InWords.gradient_eq`). The same holds for the values of the plane in the rows
of the triangle (`InWords.value_eq`).
-/

namespace Redraw

/-- Down to its lower end an edge moves to the side by its width and by what its slope is off, at most. -/
theorem abs_slope_mul_le {dx dy y n : Int} (down : 0 < dy) (size : |dx| ≤ n * 0x4000) (start : 0 ≤ y) (stop : y ≤ dy) :
    |slope dx dy * y| ≤ n * 0x4000 * 0x10000 + (n + 1) * dy := by
  have error := abs_slope_mul_sub_lt down size
  calc |slope dx dy * y| ≤ |slope dx dy * dy| := by
        rw [abs_mul, abs_mul, abs_of_nonneg start, abs_of_pos down]
        exact mul_le_mul_of_nonneg_left stop (abs_nonneg _)
    _ ≤ |dx * 0x10000| + |slope dx dy * dy - dx * 0x10000| := by
        rw [← sub_le_iff_le_add']
        exact abs_sub_abs_le_abs_sub ..
    _ ≤ n * 0x4000 * 0x10000 + (n + 1) * dy := add_le_add (abs_mul_le size le_rfl) error.le

/-- The position of the vertex is given by two half words. -/
structure Vertex.IsPlaced (p : Vertex) : Prop where
  x : -32768 ≤ p.x ∧ p.x < 32768
  y : -32768 ≤ p.y ∧ p.y < 32768

namespace InWords

variable {u w : Vertex} {k : Nat} {Y : Int}

theorem wrap64_shifted {x : Int} (word : IsWord x) : wrap64 (x * 0x10000) = x * 0x10000 := by
  obtain ⟨lo, hi⟩ := word
  exact wrap64_eq_self (by omega) (by omega)

/-! ## Edges -/

def toOutput (c : Int) (scale : Nat) : Int := wrap64 (wrap64 (c * scale) * 0x2000)

def edge (upper lower : Vertex) (scale : Nat) : Edge where
  x := toOutput upper.x scale
  y := toOutput upper.y scale
  slope := slope (wrap32 (lower.x - upper.x)) (wrap32 (lower.y - upper.y))

def xAt (e : Edge) (y : Int) : Int := wrap64 (e.x + wrap64 (e.slope * wrap64 (y - e.y)) / 0x10000)

theorem toOutput_eq {c : Int} (half : -32768 ≤ c ∧ c < 32768) (scale : k < 2147483648) :
    toOutput c k = Redraw.toOutput c k := by
  have size : |c| ≤ 0x8000 := abs_le.2 ⟨half.1, half.2.le⟩
  have factor : |(k : Int)| ≤ 0x80000000 := by
    rw [Nat.abs_cast]
    omega
  rw [toOutput, wrap64_mul size factor (by decide), wrap64_mul (abs_mul_le size factor) le_rfl (by decide), Redraw.toOutput]

theorem edge_eq (upper : u.IsPlaced) (lower : w.IsPlaced) (scale : k < 2147483648) : edge u w k = .between u w k := by
  have ⟨ux, uy⟩ := upper
  have ⟨wx, wy⟩ := lower
  have width : IsWord (w.x - u.x) := ⟨by omega, by omega⟩
  have height : IsWord (w.y - u.y) := ⟨by omega, by omega⟩
  rw [edge, toOutput_eq ux scale, toOutput_eq uy scale, width.wrap32_eq, height.wrap32_eq, slope_eq _ width, Edge.between]

theorem abs_toOutput_le {c n : Int} (size : |c| ≤ n) (scale : k ≤ 0x10000) :
    |Redraw.toOutput c k| ≤ n * 0x10000 * 0x2000 := by
  have factor : |(k : Int)| ≤ 0x10000 := by
    rw [Nat.abs_cast]
    omega
  exact abs_mul_le (abs_mul_le size factor) le_rfl

/-- In the rows between its vertices an edge stays in long words. -/
theorem xAt_eq (upper : u.IsPlaced) (lower : w.IsPlaced) (scale : k ≤ 0x10000) (top : u.row k ≤ Y) (bottom : Y < w.row k) :
    xAt (.between u w k) (Y * 0x10000 + 0x8000) = (Edge.between u w k).xAt (Y * 0x10000 + 0x8000) := by
  have ⟨ux, uy⟩ := upper
  have ⟨wx, wy⟩ := lower
  have down := sub_pos.2 (Vertex.lt_of_row_lt (top.trans_lt bottom))
  rw [Vertex.row_le_iff] at top
  rw [Vertex.lt_row_iff] at bottom
  have start : 0 ≤ Y * 0x10000 + 0x8000 - Redraw.toOutput u.y k := by omega
  have fall : Y * 0x10000 + 0x8000 - Redraw.toOutput u.y k ≤ Redraw.toOutput (w.y - u.y) k := by
    rw [← toOutput_sub]
    omega
  have rightward : Redraw.slope (w.x - u.x) (w.y - u.y) * (Y * 0x10000 + 0x8000 - Redraw.toOutput u.y k) ≤
      max 0 (Redraw.toOutput (w.x - u.x) k * 0x10000) := slope_mul_le_max down start fall
  have leftward : min 0 (Redraw.toOutput (w.x - u.x) k * 0x10000) - (Y * 0x10000 + 0x8000 - Redraw.toOutput u.y k) ≤
      Redraw.slope (w.x - u.x) (w.y - u.y) * (Y * 0x10000 + 0x8000 - Redraw.toOutput u.y k) :=
    min_le_slope_mul down start fall
  have column := abs_le.1 (abs_toOutput_le (c := u.x) (n := 0x8000) (abs_le.2 ⟨by omega, by omega⟩) scale)
  have width := abs_le.1 (abs_toOutput_le (c := w.x - u.x) (n := 0x10000) (abs_le.2 ⟨by omega, by omega⟩) scale)
  have height := abs_le.1 (abs_toOutput_le (c := w.y - u.y) (n := 0x10000) (abs_le.2 ⟨by omega, by omega⟩) scale)
  rw [Edge.xAt_between]
  unfold xAt Edge.between
  dsimp only
  rw [wrap64_eq_self (x := Y * 0x10000 + 0x8000 - _) (by omega) (by omega)]
  generalize Redraw.slope (w.x - u.x) (w.y - u.y) * (Y * 0x10000 + 0x8000 - Redraw.toOutput u.y k) = way at *
  rw [wrap64_eq_self (x := way) (by omega) (by omega), wrap64_eq_self (by omega) (by omega)]

/-! ## Planes -/

variable {t : Triangle} {coordinate : Vertex → Int}

/-- The values of a coordinate at the vertices are words that differ by a half word at most. -/
structure Spreads (t : Triangle) (coordinate : Vertex → Int) : Prop where
  word : ∀ p ∈ t.vertices, IsWord (coordinate p)
  apart : ∀ p ∈ t.vertices, ∀ q ∈ t.vertices, |coordinate q - coordinate p| ≤ 0x10000

def longSlope (t : Triangle) (coordinate : Vertex → Int) : Int :=
  slope (wrap32 (coordinate t.c - coordinate t.a)) (wrap32 (t.c.y - t.a.y))

/-- How far the middle vertex is past the long edge in a coordinate. -/
def rise (t : Triangle) (coordinate : Vertex → Int) : Int :=
  let atB := wrap64 (wrap64 (coordinate t.a * 0x10000) + wrap64 (longSlope t coordinate * wrap32 (t.b.y - t.a.y)))
  wrap64 (wrap64 (coordinate t.b * 0x10000) - atB)

def gradient (t : Triangle) (coordinate : Vertex → Int) : Gradient :=
  let runWidth := wrap32 (wrap64 (rise t (·.x) + 0x8000) / 0x10000)
  let dx := wrap64 (rise t coordinate * ratio 1 runWidth) / 0x40000000
  ⟨wrap64 (coordinate t.a * 0x10000), dx, wrap64 (longSlope t coordinate - wrap64 (dx * longSlope t (·.x)) / 0x10000)⟩

def value (g : Gradient) (x y : Int) : Int :=
  let atColumn := wrap64 (g.origin + wrap64 (g.dx * x) / 0x10000)
  wrap64 (atColumn + wrap64 (g.dy * y) / 0x10000)

theorem longSlope_eq (proper : t.Proper) (spreads : Spreads t coordinate) :
    longSlope t coordinate = Redraw.slope (coordinate t.c - coordinate t.a) (t.c.y - t.a.y) := by
  have down := proper.ac
  have height := proper.moderate.height _ t.a_mem_vertices _ t.c_mem_vertices
  have change := abs_le.1 (spreads.apart _ t.a_mem_vertices _ t.c_mem_vertices)
  have word : IsWord (coordinate t.c - coordinate t.a) := ⟨by omega, by omega⟩
  have word' : IsWord (t.c.y - t.a.y) := ⟨by omega, by omega⟩
  rw [longSlope, word.wrap32_eq, word'.wrap32_eq, slope_eq _ word]

theorem abs_longSlope_le (spreads : Spreads t coordinate) :
    |Redraw.slope (coordinate t.c - coordinate t.a) (t.c.y - t.a.y)| ≤ 4 * 0x40000000 :=
  abs_slope_le _ (spreads.apart _ t.a_mem_vertices _ t.c_mem_vertices)

theorem rise_eq (proper : t.Proper) (spreads : Spreads t coordinate) : rise t coordinate = t.rise coordinate := by
  have ab := proper.ab
  have bc := proper.bc
  have tall := proper.moderate.height _ t.a_mem_vertices _ t.c_mem_vertices
  have height : IsWord (t.b.y - t.a.y) := ⟨by omega, by omega⟩
  have factor : |t.b.y - t.a.y| ≤ 0x4000 := abs_le.2 ⟨by omega, by omega⟩
  have ha := spreads.word _ t.a_mem_vertices
  have hb := spreads.word _ t.b_mem_vertices
  have steep := abs_longSlope_le spreads
  have way := abs_le.1 (abs_mul_le steep factor)
  have exact : t.rise coordinate = coordinate t.b * 0x10000 - (coordinate t.a * 0x10000 +
      Redraw.slope (coordinate t.c - coordinate t.a) (t.c.y - t.a.y) * (t.b.y - t.a.y)) := by
    unfold Triangle.rise lead
    ring
  rw [exact, rise, longSlope_eq proper spreads, height.wrap32_eq, wrap64_shifted ha, wrap64_shifted hb,
    wrap64_mul steep factor (by decide)]
  obtain ⟨la, ga⟩ := ha
  obtain ⟨lb, gb⟩ := hb
  rw [wrap64_eq_self (x := coordinate t.a * _ + _) (by omega) (by omega), wrap64_eq_self (by omega) (by omega)]

/-- The plane of a coordinate over a triangle of moderate size is reckoned without any wrapping around. -/
theorem gradient_eq (proper : t.Proper) (columns : ∀ p ∈ t.vertices, IsWord p.x) (spreads : Spreads t coordinate) :
    gradient t coordinate = .ofTriangle t coordinate := by
  have width := proper.moderate.width
  have across : Spreads t (·.x) := ⟨columns, fun p hp q hq => (width p hp q hq).trans (by decide)⟩
  have steep : |Redraw.slope (t.c.x - t.a.x) (t.c.y - t.a.y)| ≤ 1 * 0x40000000 :=
    abs_slope_le _ (width _ t.a_mem_vertices _ t.c_mem_vertices)
  have run : |t.rise (·.x)| ≤ 5 * 0x40000000 := proper.abs_rise_le across.apart
  have unit : IsWord 1 := ⟨by decide, by decide⟩
  have rise := proper.abs_rise_le spreads.apart
  have step := Gradient.abs_dx_le (proper.abs_rise_le spreads.apart)
  have turn := abs_le.1 (abs_mul_le step steep)
  have long := abs_le.1 (abs_longSlope_le spreads)
  rw [abs_le] at run
  rw [gradient, rise_eq proper across, rise_eq proper spreads, longSlope_eq proper across, longSlope_eq proper spreads,
    wrap64_shifted (spreads.word _ t.a_mem_vertices), wrap64_eq_self (x := t.rise (·.x) + _) (by omega) (by omega),
    ← Triangle.runWidth, ratio_eq _ unit, wrap64_mul rise (abs_ratio_one_le _) (by decide), ← Gradient.dx_ofTriangle,
    wrap64_mul step steep (by decide), wrap64_eq_self (by omega) (by omega)]
  rfl

/-- Over the height of the triangle the step from row to row takes back what the other one gains along the long edge. The gain
is the large part: the step for a column times the width of that edge. -/
theorem abs_dy_mul_lt {y : Int} (proper : t.Proper) (spreads : Spreads t coordinate) (top : 0 ≤ y)
    (bottom : y ≤ t.c.y - t.a.y) :
    |(Gradient.ofTriangle t coordinate).dy * (y * 0x10000)| < 0x5800000000000000 := by
  have down := sub_pos.2 proper.ac
  have height := proper.moderate.height _ t.a_mem_vertices _ t.c_mem_vertices
  have width := proper.moderate.width _ t.a_mem_vertices _ t.c_mem_vertices
  have change := spreads.apart _ t.a_mem_vertices _ t.c_mem_vertices
  have along := abs_le.1 (abs_slope_mul_le (n := 4) down change top bottom)
  have step := Gradient.abs_dx_le (proper.abs_rise_le spreads.apart)
  have turned := abs_le.1 (abs_mul_le step (abs_slope_mul_le (n := 1) down width top bottom))
  have dy : (Gradient.ofTriangle t coordinate).dy = Redraw.slope (coordinate t.c - coordinate t.a) (t.c.y - t.a.y) -
    (Gradient.ofTriangle t coordinate).dx * Redraw.slope (t.c.x - t.a.x) (t.c.y - t.a.y) / 0x10000 := rfl
  generalize (Gradient.ofTriangle t coordinate).dx = dx at *
  generalize Redraw.slope (t.c.x - t.a.x) (t.c.y - t.a.y) = s at *
  have rounded := Int.mul_ediv_add_emod (dx * s) 0x10000
  have cut := Int.emod_nonneg (dx * s) (by decide : (0x10000 : Int) ≠ 0)
  have cut' := Int.emod_lt_of_pos (dx * s) (by decide : (0 : Int) < 0x10000)
  have lost := abs_le.1 (abs_mul_le ((abs_of_nonneg cut).trans_le cut'.le) ((abs_of_nonneg top).trans_le bottom))
  have parts : (Gradient.ofTriangle t coordinate).dy * (y * 0x10000) =
      Redraw.slope (coordinate t.c - coordinate t.a) (t.c.y - t.a.y) * y * 0x10000 - dx * (s * y) + dx * s % 0x10000 * y := by
    rw [dy]
    linear_combination -y * rounded
  rw [parts, abs_lt]
  omega

/-- In the rows of the triangle, and at columns that are as near as those of the screen, a plane stays in long words. -/
theorem value_eq {x y : Int} (proper : t.Proper) (spreads : Spreads t coordinate) (near : |x| ≤ 0x4000) (top : 0 ≤ y)
    (bottom : y ≤ t.c.y - t.a.y) : value (.ofTriangle t coordinate) (x * 0x10000) (y * 0x10000) =
      (Gradient.ofTriangle t coordinate).value (x * 0x10000) (y * 0x10000) := by
  have ⟨lo, hi⟩ := spreads.word _ t.a_mem_vertices
  have origin : (Gradient.ofTriangle t coordinate).origin = coordinate t.a * 0x10000 := rfl
  have step := Gradient.abs_dx_le (proper.abs_rise_le spreads.apart)
  have forth : |x * 0x10000| ≤ 0x4000 * 0x10000 := abs_mul_le near le_rfl
  have across := abs_le.1 (abs_mul_le step forth)
  have along := abs_lt.1 (abs_dy_mul_lt proper spreads top bottom)
  rw [value, wrap64_mul step forth (by decide), wrap64_eq_self (x := _ * (y * 0x10000)) (by omega) (by omega), origin,
    wrap64_eq_self (x := coordinate t.a * _ + _) (by omega) (by omega), wrap64_eq_self (by omega) (by omega)]
  rfl

theorem spreads_of_halfWords (half : t.HalfWords coordinate) : Spreads t coordinate where
  word p hp := by
    have ⟨lo, hi⟩ := half p hp
    exact ⟨by omega, by omega⟩
  apart := half.apart

theorem Spreads.sorted (spreads : Spreads t coordinate) : Spreads t.sorted coordinate where
  word p hp := spreads.word p ((Triangle.perm_sorted t).subset hp)
  apart p hp q hq := spreads.apart p ((Triangle.perm_sorted t).subset hp) q ((Triangle.perm_sorted t).subset hq)

/-- The planes of a fill, which leaves out a triangle that has no height. -/
theorem gradient_sorted_eq (range : ∀ p ∈ t.vertices, (-8192 ≤ p.x ∧ p.x ≤ 8191) ∧ -8192 ≤ p.y ∧ p.y ≤ 8191)
    (tall : t.sorted.a.y ≠ t.sorted.c.y) (spreads : Spreads t coordinate) :
    gradient t.sorted coordinate = .ofTriangle t.sorted coordinate := by
  have ab := Vertex.le_of_not_after (Triangle.sorted_ordered t).1
  have bc := Vertex.le_of_not_after (Triangle.sorted_ordered t).2
  refine gradient_eq ⟨Triangle.moderate_sorted range, ab, bc, by omega⟩ (fun p hp => ?_) spreads.sorted
  obtain ⟨⟨lo, hi⟩, -⟩ := range p ((Triangle.perm_sorted t).subset hp)
  exact ⟨by omega, by omega⟩

end InWords

end Redraw

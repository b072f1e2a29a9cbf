import Mathlib.Tactic.Positivity
import Redraw.Proofs.Triangle.Extent
import Redraw.Proofs.Triangle.Slice

/-!
# How exact a fill is

A rounded slope is off by less than two units, so in every row of a triangle of moderate size a rounded edge is less than
an eighth of a logical pixel away from where the exact edge crosses the centers of the row
(`Edge.abs_atRow_sub_crossing_lt`). A middle vertex that is judged to be on the wrong side is so close to the long edge
that no column lies an eighth of a logical pixel inside of the triangle (`Triangle.onLeft_iff_of_far`). So a fill is right
up to an eighth of a logical pixel (`Triangle.fill_within_eighth`).
-/

namespace Redraw

/-! ## Slopes -/

/-- The error of a rounded slope: less than one unit from the slope itself, and as much again for every `0x4000` that the
edge goes to the side, from the reciprocal. -/
theorem abs_slope_mul_sub_lt {dx dy n : Int} (down : 0 < dy) (size : |dx| ≤ n * 0x4000) :
    |slope dx dy * dy - dx * 0x10000| < (n + 1) * dy := by
  rw [slope_of_pos dx down]
  exact abs_mul_reciprocal_sub_lt down (by decide) rfl size

/-- The slope of an edge of moderate width is less than two units off. -/
theorem abs_slope_mul_sub_lt_two {dx dy : Int} (down : 0 < dy) (moderate : |dx| ≤ 0x4000) :
    |slope dx dy * dy - dx * 0x10000| < 2 * dy := abs_slope_mul_sub_lt (n := 1) down moderate

/-! ## Rows -/

theorem Vertex.row_le_iff_center {p : Vertex} {k : Nat} {Y : Int} : p.row k ≤ Y ↔ (p.y * k / 8 : ℚ) ≤ Y + 1 / 2 := by
  rw [row_le_iff, ← Int.cast_le (R := ℚ), toOutput]
  push_cast
  constructor <;> intro h <;> linarith

theorem Vertex.lt_row_iff_center {p : Vertex} {k : Nat} {Y : Int} : Y < p.row k ↔ (Y + 1 / 2 : ℚ) < p.y * k / 8 := by
  rw [← not_le, row_le_iff_center, not_le]

/-! ## Edges -/

namespace Edge

variable {u w : Vertex} {k : Nat} {X Y : Int}

/-- Where the edge meets the centers of a row, in output pixels. -/
def atRow (e : Edge) (Y : Int) : ℚ := e.xAt (Y * 0x10000 + 0x8000) / 0x10000

theorem column_le_iff {e : Edge} : e.column Y ≤ X ↔ e.atRow Y ≤ X + 1 / 2 := by
  have before : e.column Y ≤ X ↔ e.xAt (Y * 0x10000 + 0x8000) ≤ X * 0x10000 + 0x8000 := by
    unfold column firstPixel
    omega
  rw [before, ← Int.cast_le (R := ℚ), atRow, div_le_iff₀ (by norm_num)]
  push_cast
  constructor <;> intro h <;> linarith

theorem lt_column_iff {e : Edge} : X < e.column Y ↔ (X + 1 / 2 : ℚ) < e.atRow Y := by
  rw [← not_le, column_le_iff, not_le]

/-- The error of the slope after an edge came down by `T`. -/
theorem abs_drift_le {dx dy T : Int} (width : |dx| ≤ 0x4000) (down : 0 < dy) (start : 0 ≤ T) :
    |(Redraw.slope dx dy * T - 0x10000 * (dx * T / dy) : ℚ)| ≤ 2 * T := by
  have error := abs_slope_mul_sub_lt_two down width
  rw [← Int.cast_lt (R := ℚ)] at error
  push_cast at error
  have steep : (0 : ℚ) < dy := Int.cast_pos.2 down
  have start : (0 : ℚ) ≤ T := Int.cast_nonneg start
  have total : (Redraw.slope dx dy * T - 0x10000 * (dx * T / dy) : ℚ) =
      (Redraw.slope dx dy * dy - dx * 0x10000) * T / dy := by
    field_simp
  rw [total, abs_div, abs_mul, abs_of_nonneg start, abs_of_pos steep, div_le_iff₀ steep]
  nlinarith only [mul_le_mul_of_nonneg_right error.le start]

theorem atRow_sub_crossing {T : Int} (way : Y * 0x10000 + 0x8000 - toOutput u.y k = T) :
    (between u w k).atRow Y - crossing u w k (Y + 1 / 2) =
      ((Redraw.slope (w.x - u.x) (w.y - u.y) * T / 0x10000 : Int) -
        (w.x - u.x : Int) * T / (w.y - u.y : Int) : ℚ) / 0x10000 := by
  have height : (Y + 1 / 2 - u.y * k / 8 : ℚ) = T / 0x10000 := by
    rw [← way, toOutput]
    push_cast
    ring
  rw [atRow, xAt_between, way, crossing, height, toOutput]
  push_cast
  ring

/-- Between its ends a rounded edge is less than an eighth of a logical pixel off. -/
theorem abs_atRow_sub_crossing_lt (pos : 0 < k) (width : |w.x - u.x| ≤ 0x4000) (down : u.y < w.y)
    (height : w.y - u.y < 0x4000) (top : u.row k ≤ Y) (bottom : Y < w.row k) :
    |(between u w k).atRow Y - crossing u w k (Y + 1 / 2)| < k / 8 := by
  obtain ⟨T, way⟩ : ∃ T, Y * 0x10000 + 0x8000 - toOutput u.y k = T := ⟨_, rfl⟩
  have start : 0 ≤ T := by
    rw [Vertex.row_le_iff] at top
    omega
  have fall : T ≤ 0x4000 * k * 0x2000 := by
    have bound : toOutput (w.y - u.y) k ≤ 0x4000 * k * 0x2000 := toOutput_mono k height.le
    have across := toOutput_sub w.y u.y k
    rw [Vertex.lt_row_iff] at bottom
    omega
  have drift := abs_le.1 (abs_drift_le width (sub_pos.2 down) start)
  rw [atRow_sub_crossing way, abs_lt]
  generalize Redraw.slope (w.x - u.x) (w.y - u.y) = s at *
  have floor := Int.cast_le (R := ℚ).2 (Int.ediv_mul_le (s * T) (by decide : (0x10000 : Int) ≠ 0))
  have floor' := Int.cast_lt (R := ℚ).2 (Int.lt_ediv_add_one_mul_self (s * T) (by decide : (0 : Int) < 0x10000))
  have fall : (T : ℚ) ≤ 0x4000 * k * 0x2000 := by exact_mod_cast fall
  have unit : (1 : ℚ) ≤ k := by exact_mod_cast pos
  push_cast at floor floor'
  generalize ((s * T / 0x10000 : Int) : ℚ) = rounded at *
  generalize ((w.x - u.x : Int) * T / (w.y - u.y : Int) : ℚ) = exact at *
  constructor <;> linarith

end Edge

/-! ## The middle vertex -/

/-- The order of two slopes is found up to a turn of four units for each unit of height. -/
theorem abs_slope_sub_lt {dx dy dx' dy' : Int} (down : 0 < dy) (down' : 0 < dy') (moderate : |dx| ≤ 0x4000)
    (moderate' : |dx'| ≤ 0x4000) :
    |(slope dx' dy' - slope dx dy) * (dy * dy') - 0x10000 * (dx' * dy - dy' * dx)| < 4 * (dy * dy') := by
  have error := abs_lt.1 (abs_slope_mul_sub_lt_two down moderate)
  have error' := abs_lt.1 (abs_slope_mul_sub_lt_two down' moderate')
  generalize slope dx dy = s at *
  generalize slope dx' dy' = s' at *
  rw [abs_lt]
  constructor
  · nlinarith only [mul_lt_mul_of_pos_right error.2 down', mul_lt_mul_of_pos_right error'.1 down]
  · nlinarith only [mul_lt_mul_of_pos_right error.1 down', mul_lt_mul_of_pos_right error'.2 down]

namespace Triangle

open Vertex

/-- The vertices are at most 2048 logical pixels apart. -/
structure Moderate (t : Triangle) : Prop where
  width : ∀ p ∈ t.vertices, ∀ q ∈ t.vertices, |q.x - p.x| ≤ 0x4000
  height : ∀ p ∈ t.vertices, ∀ q ∈ t.vertices, q.y - p.y < 0x4000

variable {t : Triangle} {k : Nat} {X Y : Int}

/-- A middle vertex that is judged to be on the wrong side is close to the long edge. -/
theorem onLeft_iff_of_far (moderate : t.Moderate) (ab : t.a.y ≤ t.b.y) (ac : t.a.y < t.c.y)
    (far : t.c.y - t.a.y ≤ |turn t.a t.c t.b|) : t.onLeft = true ↔ 0 < turn t.a t.c t.b := by
  have ha := t.a_mem_vertices
  have hb := t.b_mem_vertices
  have hc := t.c_mem_vertices
  have long := sub_pos.2 ac
  rcases ab.eq_or_lt with level | ab
  · have side : turn t.a t.c t.b = (t.c.y - t.a.y) * (t.a.x - t.b.x) := by
      rw [turn, level]
      ring
    rw [onLeft, middleOnLeft, if_pos level, decide_eq_true_iff, side, mul_pos_iff_of_pos_left long, sub_pos]
  · have short := sub_pos.2 ab
    have error := abs_lt.1 (abs_slope_sub_lt short long (moderate.width _ ha _ hb) (moderate.width _ ha _ hc))
    have flat := mul_lt_mul_of_pos_right (moderate.height _ ha _ hb) long
    have judged : t.onLeft = true ↔ slope (t.b.x - t.a.x) (t.b.y - t.a.y) < slope (t.c.x - t.a.x) (t.c.y - t.a.y) := by
      rw [onLeft, middleOnLeft, if_neg ab.ne, decide_eq_true_iff]
      rfl
    rw [judged]
    rw [show (t.c.x - t.a.x) * (t.b.y - t.a.y) - (t.c.y - t.a.y) * (t.b.x - t.a.x) = turn t.a t.c t.b from rfl] at error
    have area := mul_pos short long
    generalize slope (t.b.x - t.a.x) (t.b.y - t.a.y) = s at *
    generalize slope (t.c.x - t.a.x) (t.c.y - t.a.y) = s' at *
    constructor
    · intro less
      have gap : (t.b.y - t.a.y) * (t.c.y - t.a.y) ≤ (s' - s) * ((t.b.y - t.a.y) * (t.c.y - t.a.y)) :=
        le_mul_of_one_le_left area.le (by omega)
      rcases le_abs.1 far with left | right <;> omega
    · intro left
      rw [abs_of_pos left] at far
      by_contra more
      have gap : (s' - s) * ((t.b.y - t.a.y) * (t.c.y - t.a.y)) ≤ 0 :=
        mul_nonpos_of_nonpos_of_nonneg (by omega) area.le
      omega

/-! ## Rows -/

theorem Crosses.abs_atRow_sub_lt {u w : Vertex} {τ : ℤ} (edge : t.Crosses k (Y + 1 / 2) u w τ) (moderate : t.Moderate)
    (pos : 0 < k) : |(Edge.between u w k).atRow Y - crossing u w k (Y + 1 / 2)| < k / 8 :=
  Edge.abs_atRow_sub_crossing_lt pos (moderate.width _ edge.upper _ edge.lower) edge.down
    (moderate.height _ edge.upper _ edge.lower) (row_le_iff_center.2 edge.top) (lt_row_iff_center.2 edge.bottom)

theorem crosses_long (top : t.a.row k ≤ Y) (bottom : Y < t.c.row k) :
    t.Crosses k (Y + 1 / 2) t.a t.c (turn t.a t.c t.b) where
  upper := t.a_mem_vertices
  lower := t.c_mem_vertices
  down := lt_of_row_lt (top.trans_lt bottom)
  top := row_le_iff_center.1 top
  bottom := lt_row_iff_center.1 bottom
  turns := forall_mem_vertices.2 ⟨.inl (turn_self_left ..), .inr rfl, .inl (turn_self_right ..)⟩

theorem exists_crosses_short (top : t.a.row k ≤ Y) (bottom : Y < t.c.row k) :
    ∃ u w, t.shortEdge k Y = .between u w k ∧ t.Crosses k (Y + 1 / 2) u w (-turn t.a t.c t.b) := by
  have upper : turn t.a t.b t.c = -turn t.a t.c t.b := by rw [turn_rotate t.c t.a t.b, turn_swap]
  have lower : turn t.b t.c t.a = -turn t.a t.c t.b := (turn_rotate ..).trans upper
  by_cases before : Y < t.b.row k
  · refine ⟨t.a, t.b, if_pos before, t.a_mem_vertices, t.b_mem_vertices, lt_of_row_lt (top.trans_lt before),
      row_le_iff_center.1 top, lt_row_iff_center.1 before, ?_⟩
    exact forall_mem_vertices.2 ⟨.inl (turn_self_left ..), .inl (turn_self_right ..), .inr upper⟩
  · rw [not_lt] at before
    refine ⟨t.b, t.c, if_neg before.not_gt, t.b_mem_vertices, t.c_mem_vertices, lt_of_row_lt (before.trans_lt bottom),
      row_le_iff_center.1 before, lt_row_iff_center.1 bottom, ?_⟩
    exact forall_mem_vertices.2 ⟨.inr lower, .inl (turn_self_left ..), .inl (turn_self_right ..)⟩

/-- The exact crossings of the edges that bound a row. They are the ends of the slice, and unless the slice is narrow they
are in the right order. -/
theorem exists_crossings (moderate : t.Moderate) (pos : 0 < k) (ab : t.a.y ≤ t.b.y) (top : t.a.row k ≤ Y)
    (bottom : Y < t.c.row k) :
    ∃ ℓ ρ : ℚ, t.slice k (Y + 1 / 2) = Set.uIcc ℓ ρ ∧ |(t.leftEdge k Y).atRow Y - ℓ| < k / 8 ∧
      |(t.rightEdge k Y).atRow Y - ρ| < k / 8 ∧ (k / 8 < |ℓ - ρ| → ℓ ≤ ρ) := by
  have long := crosses_long top bottom
  obtain ⟨u, w, edge, short⟩ := exists_crosses_short top bottom
  have meets := short.mem_slice pos
  have slice := long.slice_eq short pos
  have near := long.abs_atRow_sub_lt moderate pos
  have near' : |(t.shortEdge k Y).atRow Y - crossing u w k (Y + 1 / 2)| < k / 8 :=
    edge ▸ short.abs_atRow_sub_lt moderate pos
  have judged (wide : (k / 8 : ℚ) < |crossing t.a t.c k (Y + 1 / 2) - crossing u w k (Y + 1 / 2)|) :=
    onLeft_iff_of_far moderate ab long.down (long.fall_le_abs pos meets wide)
  unfold leftEdge rightEdge
  cases side : t.onLeft with
  | true =>
    refine ⟨_, _, slice.trans (Set.uIcc_comm ..), near', near, fun wide => ?_⟩
    rw [abs_sub_comm] at wide
    exact long.le_crossing ((judged wide).1 side).le meets
  | false =>
    refine ⟨_, _, slice, near, near', fun wide => long.crossing_le ?_ meets⟩
    rw [← not_lt, ← judged wide, side]
    exact Bool.false_ne_true

/-- In a row of a sorted triangle, the columns between its bounds are those of the slice up to an eighth of a logical
pixel. -/
theorem exists_slice (moderate : t.Moderate) (pos : 0 < k) (ab : t.a.y ≤ t.b.y) (top : t.a.row k ≤ Y)
    (bottom : Y < t.c.row k) :
    ∃ L R, L ≤ R ∧ t.slice k (Y + 1 / 2) = Set.Icc L R ∧ ∀ X,
      (t.Covers k X Y → L - k / 8 < X + 1 / 2 ∧ (X + 1 / 2 : ℚ) < R + k / 8) ∧
      (L + k / 8 ≤ X + 1 / 2 → (X + 1 / 2 : ℚ) < R - k / 8 → t.Covers k X Y) := by
  obtain ⟨ℓ, ρ, slice, near, near', order⟩ := exists_crossings moderate pos ab top bottom
  rw [abs_lt] at near near'
  refine ⟨ℓ ⊓ ρ, ℓ ⊔ ρ, inf_le_sup, slice, fun X => ?_⟩
  simp only [covers_iff, top, bottom, true_and, Edge.column_le_iff, Edge.lt_column_iff]
  constructor
  · -- between two crossings in the wrong order there may be columns too, and they are as close to the slice
    rintro ⟨left, right⟩
    have least := inf_le_left (a := ℓ) (b := ρ)
    have greatest := le_sup_right (a := ℓ) (b := ρ)
    constructor <;> linarith
  · intro left right
    have wide : (k / 8 : ℚ) < |ℓ - ρ| := by
      have unit : (0 : ℚ) < k / 8 := by positivity
      rw [← max_sub_min_eq_abs']
      linarith
    rw [inf_eq_left.2 (order wide)] at left
    rw [sup_eq_right.2 (order wide)] at right
    constructor <;> linarith

/-! ## Fills -/

/-- The height of the upper vertex. -/
def top (t : Triangle) : Int := min t.a.y (min t.b.y t.c.y)

/-- The height of the lower vertex. -/
def bottom (t : Triangle) : Int := max t.a.y (max t.b.y t.c.y)

/-- The heights that a triangle takes up on the picture, in output pixels. -/
def rows (t : Triangle) (k : Nat) : Set ℚ := Set.Ico (t.top * k / 8 : ℚ) (t.bottom * k / 8)

theorem heights_between (t : Triangle) : ∀ p ∈ t.vertices, t.top ≤ p.y ∧ p.y ≤ t.bottom := by
  rw [forall_mem_vertices]
  unfold top bottom
  omega

theorem heights_sorted (t : Triangle) : t.sorted.a.y = t.top ∧ t.sorted.c.y = t.bottom := by
  obtain ⟨ab, bc⟩ := sorted_ordered t
  have ab := le_of_not_after ab
  have bc := le_of_not_after bc
  have ordered : ∀ p ∈ t.vertices, t.sorted.a.y ≤ p.y ∧ p.y ≤ t.sorted.c.y := by
    simp only [← (perm_sorted t).mem_iff, forall_mem_vertices]
    omega
  obtain ⟨ha, hb, hc⟩ := forall_mem_vertices.1 ordered
  have upper := (heights_between t _ ((perm_sorted t).subset t.sorted.a_mem_vertices)).1
  have lower := (heights_between t _ ((perm_sorted t).subset t.sorted.c_mem_vertices)).2
  exact ⟨le_antisymm (le_min ha.1 (le_min hb.1 hc.1)) upper, le_antisymm lower (max_le ha.2 (max_le hb.2 hc.2))⟩

theorem center_mem_rows_iff {t : Triangle} :
    (Y + 1 / 2 : ℚ) ∈ t.rows k ↔ t.sorted.a.row k ≤ Y ∧ Y < t.sorted.c.row k := by
  rw [row_le_iff_center, lt_row_iff_center, (heights_sorted t).1, (heights_sorted t).2]
  rfl

theorem moderate_sorted {t : Triangle}
    (range : ∀ p ∈ t.vertices, (-8192 ≤ p.x ∧ p.x ≤ 8191) ∧ -8192 ≤ p.y ∧ p.y ≤ 8191) : t.sorted.Moderate := by
  have sorted := (perm_sorted t).subset
  constructor <;> intro p hp q hq
  · have := range p (sorted hp)
    have := range q (sorted hq)
    rw [abs_le]
    omega
  · have := range p (sorted hp)
    have := range q (sorted hq)
    omega

/-- **Right up to an eighth.** Take a triangle with vertices within 1024 logical pixels of the origin, and a pixel of the
picture. A fill sets the pixel only if its center lies in the rows of the triangle, and less than an eighth of a logical pixel
outside of the exact slice at that height; it does set it if its center lies that far inside of the slice. No other pixel
changes. -/
theorem fill_within_eighth {t : Triangle} {k : Nat} (pos : 0 < k)
    (range : ∀ p ∈ t.vertices, (-8192 ≤ p.x ∧ p.x ≤ 8191) ∧ -8192 ≤ p.y ∧ p.y ≤ 8191) :
    (∀ X Y : Int, Screen.Contains k X Y →
      (t.Paints k X Y → (Y + 1 / 2 : ℚ) ∈ t.rows k) ∧
      ((Y + 1 / 2 : ℚ) ∈ t.rows k → ∃ L R, L ≤ R ∧ t.slice k (Y + 1 / 2) = Set.Icc L R ∧
        (t.Paints k X Y → L - k / 8 < X + 1 / 2 ∧ (X + 1 / 2 : ℚ) < R + k / 8) ∧
        (L + k / 8 ≤ X + 1 / 2 → (X + 1 / 2 : ℚ) < R - k / 8 → t.Paints k X Y))) ∧
    ∀ (c : Canvas) (color : UInt8) (X Y : Int), c.scale = k → ¬t.Paints k X Y →
      (c.fillTriangle t color).pixel? X Y = c.pixel? X Y := by
  refine ⟨fun X Y inside => ⟨fun paints => ?_, fun rows => ?_⟩, ?_⟩
  · obtain ⟨-, covers⟩ := paints_iff.1 paints
    exact center_mem_rows_iff.2 ⟨covers.top, covers.bottom⟩
  · obtain ⟨top, bottom⟩ := center_mem_rows_iff.1 rows
    obtain ⟨L, R, order, slice, within⟩ :=
      exists_slice (moderate_sorted range) pos (le_of_not_after (sorted_ordered t).1) top bottom
    rw [slice_sorted] at slice
    refine ⟨L, R, order, slice, fun paints => (within X).1 (paints_iff.1 paints).2, fun left right => ?_⟩
    exact paints_iff.2 ⟨inside, (within X).2 left right⟩
  · rintro c color X Y rfl out
    rw [Canvas.pixel?_fillTriangle, if_neg fun painted => out (paints_iff.2 painted)]

/-- The exact slice of this triangle in row 3 reaches from 0 to 6.5. So pixel 3 of the row is set and pixel 8 is not. -/
theorem fill_within_eighth_corner :
    let t : Triangle := ⟨.flat 0 0, .flat 80 0, .flat 0 80⟩
    (∀ p ∈ t.vertices, (-8192 ≤ p.x ∧ p.x ≤ 8191) ∧ -8192 ≤ p.y ∧ p.y ≤ 8191) ∧
      t.Paints 1 3 3 ∧ ¬t.Paints 1 8 3 := by
  intro t
  have range : ∀ p ∈ t.vertices, (-8192 ≤ p.x ∧ p.x ≤ 8191) ∧ -8192 ≤ p.y ∧ p.y ≤ 8191 := by decide
  have left : t.Crosses 1 ((3 : Int) + 1 / 2) (.flat 0 0) (.flat 0 80) (-6400) := by
    refine ⟨by decide, by decide, by decide, ?_, ?_, by decide⟩ <;> norm_num [Vertex.flat]
  have right : t.Crosses 1 ((3 : Int) + 1 / 2) (.flat 80 0) (.flat 0 80) 6400 := by
    refine ⟨by decide, by decide, by decide, ?_, ?_, by decide⟩ <;> norm_num [Vertex.flat]
  have start : crossing (.flat 0 0) (.flat 0 80) 1 ((3 : Int) + 1 / 2) = 0 := by norm_num [crossing, Vertex.flat]
  have stop : crossing (.flat 80 0) (.flat 0 80) 1 ((3 : Int) + 1 / 2) = 13 / 2 := by norm_num [crossing, Vertex.flat]
  have rows : ((3 : Int) + 1 / 2 : ℚ) ∈ t.rows 1 := by
    constructor <;> norm_num [t, top, bottom, Vertex.flat]
  obtain ⟨fill, -⟩ := fill_within_eighth (k := 1) Nat.one_pos range
  refine ⟨range, ?_, fun paints => ?_⟩
  · obtain ⟨L, R, order, slice, -, painted⟩ := (fill 3 3 (by decide)).2 rows
    have first := left.mem_slice Nat.one_pos
    have last := right.mem_slice Nat.one_pos
    rw [slice, start] at first
    rw [slice, stop] at last
    obtain ⟨first, -⟩ := first
    obtain ⟨-, last⟩ := last
    refine painted ?_ ?_ <;> norm_num <;> linarith
  · obtain ⟨L, R, order, slice, painted, -⟩ := (fill 8 3 (by decide)).2 rows
    have last : R ∈ t.slice 1 ((3 : Int) + 1 / 2) := slice ▸ Set.right_mem_Icc.2 order
    have ends := right.le_crossing (by decide) last
    obtain ⟨-, before⟩ := painted paints
    rw [stop] at ends
    norm_num at before
    linarith

end Triangle

end Redraw

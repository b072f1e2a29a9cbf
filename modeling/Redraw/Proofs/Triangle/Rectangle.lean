import Redraw.Proofs.Canvas.Upscale
import Redraw.Proofs.Triangle.Box

/-!
# Rectangles of two triangles

A diagonal cuts a rectangle into an upper triangle, which is level at its top, and a lower one, which is level at its
bottom. In every row the two meet in the column of the diagonal, and that column lies between the sides of the rectangle
(`Rectangle.diagonal_between`). So the halves share no pixel and together set those with a center in the rectangle, and a
rectangle of whole pixels looks the same at every scale (`Rectangle.halves_tile`).
-/

namespace Redraw

/-! ## Triangles with a level side -/

/-- Edges of one height that start together keep the order of their ends, unless they are very high. -/
theorem slope_lt_slope {dx dx' dy : Int} (down : 0 < dy) (height : dy ≤ 0x10000) (less : dx < dx') :
    slope dx dy < slope dx' dy := by
  have unit : 0x4000 ≤ 0x40000000 / dy := Int.le_ediv_of_mul_le down (by omega)
  have step : (dx + 1) * (0x40000000 / dy) ≤ dx' * (0x40000000 / dy) :=
    mul_le_mul_of_nonneg_right less (Int.ediv_nonneg (by decide) down.le)
  rw [add_mul, one_mul] at step
  rw [slope_of_pos dx down, slope_of_pos dx' down]
  omega

namespace Edge

theorem column_upright (x y y' : Int) (k : Nat) (Y : Int) :
    (between (.flat x y) (.flat x y') k).column Y = firstPixel (toOutput x k) := by
  have slope : Redraw.slope (x - x) (y' - y) = 0 := by
    rw [sub_self, Redraw.slope, ratio, zero_mul, Int.zero_ediv]
  rw [column, xAt_between]
  dsimp only [Vertex.flat]
  rw [slope, zero_mul, Int.zero_ediv, add_zero]

end Edge

namespace Triangle

variable {t : Triangle} {k : Nat} {X Y : Int}

theorem covers_of_level_top (level : t.a.y = t.b.y) (order : t.a.x ≤ t.b.x) :
    t.Covers k X Y ↔ (t.a.row k ≤ Y ∧ Y < t.c.row k) ∧
      (Edge.between t.a t.c k).column Y ≤ X ∧ X < (Edge.between t.b t.c k).column Y := by
  have side : t.onLeft = false := by
    rw [onLeft, middleOnLeft, if_pos level, decide_eq_false_iff_not]
    omega
  have rows : t.b.row k = t.a.row k := by rw [Vertex.row, Vertex.row, level]
  rw [covers_iff, leftEdge, rightEdge, side, if_neg Bool.false_ne_true, if_neg Bool.false_ne_true, and_assoc]
  refine and_congr_right fun top => ?_
  rw [shortEdge, if_neg (rows ▸ top.not_gt), longEdge]

theorem covers_of_level_bottom (level : t.b.y = t.c.y) (order : t.b.x < t.c.x) (down : t.a.y < t.b.y)
    (height : t.b.y - t.a.y ≤ 0x10000) :
    t.Covers k X Y ↔ (t.a.row k ≤ Y ∧ Y < t.c.row k) ∧
      (Edge.between t.a t.b k).column Y ≤ X ∧ X < (Edge.between t.a t.c k).column Y := by
  have side : t.onLeft = true := by
    rw [onLeft, middleOnLeft, if_neg down.ne, decide_eq_true_iff]
    change slope (t.b.x - t.a.x) (t.b.y - t.a.y) < slope (t.c.x - t.a.x) (t.c.y - t.a.y)
    rw [← level]
    exact slope_lt_slope (sub_pos.2 down) height (by omega)
  have rows : t.b.row k = t.c.row k := by rw [Vertex.row, Vertex.row, level]
  rw [covers_iff, leftEdge, rightEdge, side, if_pos rfl, if_pos rfl, and_assoc]
  refine and_congr_right fun top => and_congr_right fun bottom => ?_
  rw [shortEdge, if_pos (rows ▸ bottom), longEdge]

/-! ## Positions -/

/-- The triangle without its texture. -/
def untextured (t : Triangle) : Triangle := ⟨.flat t.a.x t.a.y, .flat t.b.x t.b.y, .flat t.c.x t.c.y⟩

theorem covers_untextured : t.untextured.Covers k X Y ↔ t.Covers k X Y := by
  rw [covers_iff, covers_iff]
  rfl

/-- The triangle has its vertices at these positions, in whatever order. -/
def HasCorners (t : Triangle) (corners : List (Int × Int)) : Prop :=
  (t.vertices.map fun p => (p.x, p.y)).Perm corners

/-- A fill depends on the corners of a triangle only, and on those in the order from top to bottom, then from left to
right. -/
theorem HasCorners.covers_iff {p q r : Int × Int} (h : t.HasCorners [p, q, r])
    (ordered : [p, q, r].Pairwise fun p q => p.2 < q.2 ∨ p.2 = q.2 ∧ p.1 ≤ q.1) :
    t.sorted.Covers k X Y ↔
      (⟨.flat p.1 p.2, .flat q.1 q.2, .flat r.1 r.2⟩ : Triangle).Covers k X Y := by
  have same : t.sorted.positions = [p, q, r] := positions_sorted h ordered
  simp only [positions, vertices, List.map_cons, List.map_nil, List.cons.injEq, and_true] at same
  obtain ⟨rfl, rfl, rfl⟩ := same
  exact covers_untextured.symm

end Triangle

/-! ## Rectangles -/

/-- A rectangle that is not empty, in eighths of a logical pixel. -/
structure Rectangle where
  left : Int
  top : Int
  right : Int
  bottom : Int
  left_lt_right : left < right
  top_lt_bottom : top < bottom

inductive Diagonal where
  /-- From the upper left corner to the lower right one. -/
  | falling
  /-- From the upper right corner to the lower left one. -/
  | rising

namespace Rectangle

variable {r : Rectangle} {t t' : Triangle} {k : Nat} {X Y : Int}

/-- The corners to the left of a diagonal and at its ends. -/
def leftCorners (r : Rectangle) : Diagonal → List (Int × Int)
  | .falling => [(r.left, r.top), (r.left, r.bottom), (r.right, r.bottom)]
  | .rising => [(r.left, r.top), (r.right, r.top), (r.left, r.bottom)]

/-- The corners to the right of a diagonal and at its ends. -/
def rightCorners (r : Rectangle) : Diagonal → List (Int × Int)
  | .falling => [(r.left, r.top), (r.right, r.top), (r.right, r.bottom)]
  | .rising => [(r.right, r.top), (r.left, r.bottom), (r.right, r.bottom)]

def diagonal (r : Rectangle) (k : Nat) : Diagonal → Edge
  | .falling => .between (.flat r.left r.top) (.flat r.right r.bottom) k
  | .rising => .between (.flat r.right r.top) (.flat r.left r.bottom) k

/-- The rows of the rectangle. -/
def InRows (r : Rectangle) (k : Nat) (Y : Int) : Prop :=
  firstPixel (toOutput r.top k) ≤ Y ∧ Y < firstPixel (toOutput r.bottom k)

/-- The diagonal keeps between the sides. -/
theorem diagonal_between (height : (r.bottom - r.top) * k ≤ 65528) (d : Diagonal) (rows : r.InRows k Y) :
    firstPixel (toOutput r.left k) ≤ (r.diagonal k d).column Y ∧
      (r.diagonal k d).column Y ≤ firstPixel (toOutput r.right k) := by
  have width := r.left_lt_right.le
  obtain ⟨top, bottom⟩ := rows
  cases d with
  | falling =>
    let u : Vertex := .flat r.left r.top
    let w : Vertex := .flat r.right r.bottom
    exact ⟨Edge.le_column (u := u) (w := w) height top bottom le_rfl width,
      Edge.column_le (u := u) (w := w) top bottom width le_rfl⟩
  | rising =>
    let u : Vertex := .flat r.right r.top
    let w : Vertex := .flat r.left r.bottom
    exact ⟨Edge.le_column (u := u) (w := w) height top bottom width le_rfl,
      Edge.column_le (u := u) (w := w) top bottom le_rfl width⟩

theorem covers_left (low : r.bottom - r.top ≤ 0x10000) {d : Diagonal} (h : t.HasCorners (r.leftCorners d)) :
    t.sorted.Covers k X Y ↔
      r.InRows k Y ∧ firstPixel (toOutput r.left k) ≤ X ∧ X < (r.diagonal k d).column Y := by
  have width := r.left_lt_right
  have height := r.top_lt_bottom
  cases d with
  | falling =>
    rw [h.covers_iff (by simp; omega), Triangle.covers_of_level_bottom rfl width height low]
    dsimp only
    rw [Edge.column_upright]
    rfl
  | rising =>
    rw [h.covers_iff (by simp; omega), Triangle.covers_of_level_top rfl width.le]
    dsimp only
    rw [Edge.column_upright]
    rfl

theorem covers_right (low : r.bottom - r.top ≤ 0x10000) {d : Diagonal} (h : t.HasCorners (r.rightCorners d)) :
    t.sorted.Covers k X Y ↔
      r.InRows k Y ∧ (r.diagonal k d).column Y ≤ X ∧ X < firstPixel (toOutput r.right k) := by
  have width := r.left_lt_right
  have height := r.top_lt_bottom
  cases d with
  | falling =>
    rw [h.covers_iff (by simp; omega), Triangle.covers_of_level_top rfl width.le]
    dsimp only
    rw [Edge.column_upright]
    rfl
  | rising =>
    rw [h.covers_iff (by simp; omega), Triangle.covers_of_level_bottom rfl width height low]
    dsimp only
    rw [Edge.column_upright]
    rfl

/-! ## Both halves -/

/-- A diagonal cuts the rectangle into the two triangles, in whatever order. -/
def CutInto (r : Rectangle) (t t' : Triangle) : Prop :=
  ∃ d, t.HasCorners (r.leftCorners d) ∧ t'.HasCorners (r.rightCorners d) ∨
    t.HasCorners (r.rightCorners d) ∧ t'.HasCorners (r.leftCorners d)

/-- The center of the output pixel lies in the rectangle, whose left and upper sides belong to it. -/
def HoldsCenter (r : Rectangle) (k : Nat) (X Y : Int) : Prop :=
  ((r.left * k / 8 : ℚ) ≤ X + 1 / 2 ∧ (X + 1 / 2 : ℚ) < r.right * k / 8) ∧
    (r.top * k / 8 : ℚ) ≤ Y + 1 / 2 ∧ (Y + 1 / 2 : ℚ) < r.bottom * k / 8

theorem holdsCenter_iff :
    r.HoldsCenter k X Y ↔
      (firstPixel (toOutput r.left k) ≤ X ∧ X < firstPixel (toOutput r.right k)) ∧ r.InRows k Y := by
  have first (v Z : Int) : firstPixel (toOutput v k) ≤ Z ↔ (v * k / 8 : ℚ) ≤ Z + 1 / 2 :=
    Vertex.row_le_iff_center (p := .flat 0 v)
  simp only [HoldsCenter, InRows, ← not_le, first]

/-- The halves meet in the diagonal, which is between the sides. -/
theorem covers_halves (pos : 0 < k) (height : (r.bottom - r.top) * k ≤ 65528) {d : Diagonal}
    (h : t.HasCorners (r.leftCorners d)) (h' : t'.HasCorners (r.rightCorners d)) :
    ¬(t.sorted.Covers k X Y ∧ t'.sorted.Covers k X Y) ∧
      (t.sorted.Covers k X Y ∨ t'.sorted.Covers k X Y ↔ r.HoldsCenter k X Y) := by
  have low : r.bottom - r.top ≤ 0x10000 := by
    have once : (r.bottom - r.top) * 1 ≤ (r.bottom - r.top) * k :=
      mul_le_mul_of_nonneg_left (by omega) (sub_nonneg.2 r.top_lt_bottom.le)
    omega
  rw [covers_left low h, covers_right low h', holdsCenter_iff]
  by_cases rows : r.InRows k Y
  · have between := diagonal_between height d rows
    simp only [rows, true_and, and_true]
    omega
  · simp only [rows, false_and, and_false, not_false_eq_true, or_self, and_self]

theorem CutInto.covers (cut : r.CutInto t t') (pos : 0 < k) (height : (r.bottom - r.top) * k ≤ 65528) :
    ¬(t.sorted.Covers k X Y ∧ t'.sorted.Covers k X Y) ∧
      (t.sorted.Covers k X Y ∨ t'.sorted.Covers k X Y ↔ r.HoldsCenter k X Y) := by
  obtain ⟨d, ⟨left, right⟩ | ⟨right, left⟩⟩ := cut
  · exact covers_halves pos height left right
  · rw [and_comm (a := t.sorted.Covers k X Y), or_comm]
    exact covers_halves pos height left right

/-! ## Whole pixels -/

/-- The sides run between logical pixels. -/
structure IsWhole (r : Rectangle) : Prop where
  left : 8 ∣ r.left
  top : 8 ∣ r.top
  right : 8 ∣ r.right
  bottom : 8 ∣ r.bottom

/-- The upper left corner of the logical pixel lies in the rectangle. -/
def HoldsCorner (r : Rectangle) (x y : Int) : Prop :=
  (r.left ≤ x * 8 ∧ x * 8 < r.right) ∧ r.top ≤ y * 8 ∧ y * 8 < r.bottom

instance (r : Rectangle) (x y : Int) : Decidable (r.HoldsCorner x y) :=
  inferInstanceAs (Decidable ((r.left ≤ x * 8 ∧ x * 8 < r.right) ∧ r.top ≤ y * 8 ∧ y * 8 < r.bottom))

theorem firstPixel_le_iff_of_whole {v : Int} (whole : 8 ∣ v) (pos : 0 < k) (Z : Int) :
    firstPixel (toOutput v k) ≤ Z ↔ v ≤ Z / k * 8 := by
  obtain ⟨x, rfl⟩ := whole
  have first : firstPixel (toOutput (8 * x) k) = x * k := by
    rw [firstPixel, show toOutput (8 * x) k = x * k * 0x10000 by unfold toOutput; ring]
    omega
  rw [first, ← Int.le_ediv_iff_mul_le (Int.natCast_pos.2 pos)]
  omega

/-- A rectangle of whole pixels holds all of a block or nothing of it. -/
theorem IsWhole.holdsCenter_iff (whole : r.IsWhole) (pos : 0 < k) :
    r.HoldsCenter k X Y ↔ r.HoldsCorner (X / k) (Y / k) := by
  rw [Rectangle.holdsCenter_iff, InRows, HoldsCorner]
  simp only [← not_le, firstPixel_le_iff_of_whole whole.left pos, firstPixel_le_iff_of_whole whole.right pos,
    firstPixel_le_iff_of_whole whole.top pos, firstPixel_le_iff_of_whole whole.bottom pos]

theorem CutInto.pixel?_fill {c : Canvas} (cut : r.CutInto t t') (whole : r.IsWhole) (pos : 0 < c.scale)
    (height : (r.bottom - r.top) * c.scale ≤ 65528) (color : UInt8) :
    ((c.fillTriangle t color).fillTriangle t' color).pixel? X Y =
      if Screen.Contains c.scale X Y ∧ r.HoldsCorner (X / c.scale) (Y / c.scale) then some color else c.pixel? X Y := by
  have painted := (whole.holdsCenter_iff pos).symm.trans (cut.covers (X := X) (Y := Y) pos height).2.symm
  rw [Canvas.pixel?_fillTriangle, Canvas.pixel?_fillTriangle, Canvas.scale_fillTriangle]
  by_cases inside : Screen.Contains c.scale X Y
  · by_cases second : t'.sorted.Covers c.scale X Y <;> simp [painted, inside, second]
  · simp [inside]

/-- **Two halves make a rectangle.** The halves of a rectangle share no pixel, and together they set those pixels of the
picture with a center in the rectangle. So a rectangle of whole pixels that is filled on an enlarged picture looks as if
it had been filled before. -/
theorem halves_tile (pos : 0 < k) (height : (r.bottom - r.top) * k ≤ 65528) (cut : r.CutInto t t') :
    (∀ X Y, ¬(t.Paints k X Y ∧ t'.Paints k X Y)) ∧
      (∀ X Y, t.Paints k X Y ∨ t'.Paints k X Y ↔ Screen.Contains k X Y ∧ r.HoldsCenter k X Y) ∧
      (r.IsWhole → ∀ (large small : Canvas) (color : UInt8), large.scale = k → large.Upscales small →
        ((large.fillTriangle t color).fillTriangle t' color).Upscales
          ((small.fillTriangle t color).fillTriangle t' color)) := by
  refine ⟨fun X Y both => ?_, fun X Y => ?_, fun whole large small color scale upscales => ?_⟩
  · rw [Triangle.paints_iff, Triangle.paints_iff] at both
    exact (cut.covers pos height).1 ⟨both.1.2, both.2.2⟩
  · rw [Triangle.paints_iff, Triangle.paints_iff, ← and_or_left, (cut.covers pos height).2]
  · subst scale
    have native := upscales.native
    have height' : (r.bottom - r.top) * small.scale ≤ 65528 := by
      have once : (r.bottom - r.top) * (1 : Nat) ≤ (r.bottom - r.top) * large.scale :=
        mul_le_mul_of_nonneg_left (by omega) (sub_nonneg.2 r.top_lt_bottom.le)
      rw [native]
      omega
    refine upscales.recolor color r.HoldsCorner (by simp) (by simp)
      (fun X Y => cut.pixel?_fill whole pos height color) fun x y => ?_
    rw [cut.pixel?_fill whole (native ▸ Nat.one_pos) height' color, native, Int.natCast_one, Int.ediv_one, Int.ediv_one]

/-- A rectangle with a corner off the screen, of two triangles whose vertices are in no order. -/
theorem halves_tile_corner :
    let r : Rectangle := ⟨-16, 8, 40, 48, by decide, by decide⟩
    let t : Triangle := ⟨⟨40, 8, 3, 5⟩, .flat (-16) 48, ⟨-16, 8, 1, 2⟩⟩
    let t' : Triangle := ⟨.flat (-16) 48, .flat 40 8, .flat 40 48⟩
    (0 < 3 ∧ (r.bottom - r.top) * (3 : Nat) ≤ 65528 ∧ r.CutInto t t' ∧ r.IsWhole) ∧
      (t.Paints 3 0 3 ∨ t'.Paints 3 0 3) ∧
      (((Canvas.blank 3).fillTriangle t 7).fillTriangle t' 7).Upscales
        (((Canvas.blank 1).fillTriangle t 7).fillTriangle t' 7) := by
  intro r t t'
  have height : (r.bottom - r.top) * (3 : Nat) ≤ 65528 := by decide
  have cut : r.CutInto t t' := by
    refine ⟨.rising, .inl ⟨?_, .swap _ _ _⟩⟩
    exact (List.reverse_perm [(-16, 8), (-16, 48), (40, 8)]).trans (.cons _ (.swap _ _ _))
  have whole : r.IsWhole := ⟨by decide, by decide, by decide, by decide⟩
  obtain ⟨-, union, enlarged⟩ := halves_tile (k := 3) (by decide) height cut
  refine ⟨⟨by decide, height, cut, whole⟩, (union 0 3).2 ⟨by decide, ?_⟩, ?_⟩
  · norm_num [HoldsCenter, r]
  · exact enlarged whole (.blank 3) (.blank 1) 7 rfl (Canvas.upscales_blank (by decide))

end Rectangle

end Redraw

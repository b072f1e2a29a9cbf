import Mathlib.Tactic.Ring
import Redraw.Proofs.Canvas.Scale
import Redraw.Proofs.Reciprocal.Error
import Redraw.Proofs.Triangle.Coverage

/-!
# How far a triangle reaches

Slopes are rounded down. So an edge never passes the right one of its ends, and it passes the left one by at most one
unit for each row (`Edge.xAt_le`, `Edge.le_xAt`). The columns of a covered pixel are bounded in the same way by the
vertices of the triangle (`Covers.lt_right`, `Covers.left_le`), and its row by the rows of the vertices. Flat and textured
fills change no pixel that the triangle does not cover.
-/

namespace Redraw

/-! ## Rounded slopes -/

theorem slope_of_pos (dx : Int) {dy : Int} (down : 0 < dy) : slope dx dy = dx * (0x40000000 / dy) / 0x4000 := by
  rw [slope, ratio, reciprocal_of_pos down]

theorem slope_nonneg {dx dy : Int} (right : 0 ≤ dx) (down : 0 < dy) : 0 ≤ slope dx dy := by
  rw [slope_of_pos dx down]
  exact Int.ediv_nonneg (mul_nonneg right (Int.ediv_nonneg (by decide) down.le)) (by decide)

theorem slope_nonpos {dx dy : Int} (left : dx ≤ 0) (down : 0 < dy) : slope dx dy ≤ 0 := by
  have product : dx * (0x40000000 / dy) ≤ 0 :=
    mul_nonpos_of_nonpos_of_nonneg left (Int.ediv_nonneg (by decide) down.le)
  rw [slope_of_pos dx down]
  omega

theorem slope_mul_le {dx dy : Int} (right : 0 ≤ dx) (down : 0 < dy) : slope dx dy * dy ≤ dx * 0x10000 := by
  have bound := slope_le right down
  rw [le_div_iff₀ (Int.cast_pos.2 down)] at bound
  exact_mod_cast bound

theorem le_slope_mul {dx dy : Int} (left : dx ≤ 0) (down : 0 < dy) : dx * 0x10000 - dy ≤ slope dx dy * dy := by
  have bound := sub_one_lt_slope left down
  have steep : (0 : ℚ) < dy := Int.cast_pos.2 down
  rw [div_sub_one steep.ne', div_lt_iff₀ steep] at bound
  exact_mod_cast bound.le

/-! ## Edges -/

theorem Vertex.row_le_iff {p : Vertex} {k : Nat} {Y : Int} :
    p.row k ≤ Y ↔ toOutput p.y k ≤ Y * 0x10000 + 0x8000 := by
  unfold row firstPixel
  omega

theorem Vertex.lt_row_iff {p : Vertex} {k : Nat} {Y : Int} :
    Y < p.row k ↔ Y * 0x10000 + 0x8000 < toOutput p.y k := by
  unfold row firstPixel
  omega

theorem toOutput_sub (v w : Int) (k : Nat) : toOutput v k - toOutput w k = toOutput (v - w) k := by
  unfold toOutput
  ring

/-- On its way down an edge moves to the right by its width at most. -/
theorem slope_mul_le_max {dx dy t : Int} {k : Nat} (down : 0 < dy) (start : 0 ≤ t) (fall : t ≤ toOutput dy k) :
    slope dx dy * t ≤ max 0 (toOutput dx k * 0x10000) := by
  rcases le_total 0 dx with right | left
  · refine le_max_of_le_right ?_
    calc slope dx dy * t ≤ slope dx dy * toOutput dy k := mul_le_mul_of_nonneg_left fall (slope_nonneg right down)
      _ = toOutput (slope dx dy * dy) k := by unfold toOutput; ring
      _ ≤ toOutput (dx * 0x10000) k := toOutput_mono k (slope_mul_le right down)
      _ = toOutput dx k * 0x10000 := by unfold toOutput; ring
  · exact le_max_of_le_left (mul_nonpos_of_nonpos_of_nonneg (slope_nonpos left down) start)

/-- On its way down an edge moves to the left by its width at most, and by one unit more for each unit of height. -/
theorem min_le_slope_mul {dx dy t : Int} {k : Nat} (down : 0 < dy) (start : 0 ≤ t) (fall : t ≤ toOutput dy k) :
    min 0 (toOutput dx k * 0x10000) - t ≤ slope dx dy * t := by
  rcases le_total 0 dx with right | left
  · have forth := mul_nonneg (slope_nonneg right down) start
    omega
  · have far : toOutput dx k * 0x10000 * dy ≤ dx * 0x10000 * t := by
      calc toOutput dx k * 0x10000 * dy = dx * 0x10000 * toOutput dy k := by unfold toOutput; ring
        _ ≤ dx * 0x10000 * t := mul_le_mul_of_nonpos_left fall (by omega)
    have back : toOutput dx k * 0x10000 - t ≤ slope dx dy * t := by
      refine le_of_mul_le_mul_right ?_ down
      nlinarith only [far, mul_le_mul_of_nonneg_right (le_slope_mul left down) start]
    exact (sub_le_sub_right (min_le_right _ _) t).trans back

namespace Edge

variable {u w : Vertex} {k : Nat} {y : Int}

theorem xAt_between (u w : Vertex) (k : Nat) (y : Int) :
    (Edge.between u w k).xAt y =
      toOutput u.x k + Redraw.slope (w.x - u.x) (w.y - u.y) * (y - toOutput u.y k) / 0x10000 := rfl

/-- An edge does not pass the right one of its ends. -/
theorem xAt_le (down : u.y < w.y) (top : toOutput u.y k ≤ y) (bottom : y ≤ toOutput w.y k) :
    (Edge.between u w k).xAt y ≤ max (toOutput u.x k) (toOutput w.x k) := by
  have across := toOutput_sub w.x u.x k
  have height := toOutput_sub w.y u.y k
  have way : Redraw.slope (w.x - u.x) (w.y - u.y) * (y - toOutput u.y k) ≤ max 0 (toOutput (w.x - u.x) k * 0x10000) :=
    slope_mul_le_max (by omega) (by omega) (by omega)
  rw [xAt_between]
  omega

/-- An edge passes the left one of its ends by at most one unit for each unit of its height, and one more. -/
theorem le_xAt (down : u.y < w.y) (top : toOutput u.y k ≤ y) (bottom : y ≤ toOutput w.y k) :
    min (toOutput u.x k) (toOutput w.x k) - (y - toOutput u.y k) / 0x10000 - 1 ≤ (Edge.between u w k).xAt y := by
  have across := toOutput_sub w.x u.x k
  have height := toOutput_sub w.y u.y k
  have way : min 0 (toOutput (w.x - u.x) k * 0x10000) - (y - toOutput u.y k) ≤
      Redraw.slope (w.x - u.x) (w.y - u.y) * (y - toOutput u.y k) := min_le_slope_mul (by omega) (by omega) (by omega)
  rw [xAt_between]
  omega

end Edge

/-! ## Covered pixels -/

namespace Triangle

open Vertex

variable {t : Triangle} {k : Nat} {X Y : Int}

/-- In a row of a triangle, each of its two bounds is an edge between two of its vertices that crosses the row. -/
theorem bound_between {e : Edge} (bound : e = t.shortEdge k Y ∨ e = t.longEdge k) (top : t.a.row k ≤ Y)
    (bottom : Y < t.c.row k) :
    ∃ u ∈ t.vertices, ∃ w ∈ t.vertices, e = .between u w k ∧ u.row k ≤ Y ∧ Y < w.row k := by
  rcases bound with rfl | rfl
  · unfold shortEdge
    split
    · rename_i upper
      exact ⟨t.a, t.a_mem_vertices, t.b, t.b_mem_vertices, rfl, top, upper⟩
    · rename_i lower
      exact ⟨t.b, t.b_mem_vertices, t.c, t.c_mem_vertices, rfl, by omega, bottom⟩
  · exact ⟨t.a, t.a_mem_vertices, t.c, t.c_mem_vertices, rfl, top, bottom⟩

theorem leftEdge_eq (t : Triangle) (k : Nat) (Y : Int) :
    t.leftEdge k Y = t.shortEdge k Y ∨ t.leftEdge k Y = t.longEdge k := by
  unfold leftEdge
  split <;> simp

theorem rightEdge_eq (t : Triangle) (k : Nat) (Y : Int) :
    t.rightEdge k Y = t.shortEdge k Y ∨ t.rightEdge k Y = t.longEdge k := by
  unfold rightEdge
  split <;> simp

/-- A covered pixel lies before the first column at the right end of the triangle. -/
theorem Covers.lt_right (h : t.Covers k X Y) {right : Int} (all : ∀ p ∈ t.vertices, p.x ≤ right) :
    X < firstPixel (toOutput right k) := by
  obtain ⟨u, hu, w, hw, edge, above, below⟩ := bound_between (t.rightEdge_eq k Y) h.top h.bottom
  have reach := Edge.xAt_le (lt_of_row_lt (Int.lt_of_le_of_lt above below)) (row_le_iff.1 above)
    (lt_row_iff.1 below).le
  calc X < (t.rightEdge k Y).column Y := h.right
    _ ≤ firstPixel (toOutput right k) := by
      rw [edge]
      exact firstPixel_mono (reach.trans (max_le (toOutput_mono k (all u hu)) (toOutput_mono k (all w hw))))

/-- A covered pixel lies at or after the first column at the left end of the triangle, moved to the left by one unit for
each row that an edge has come down, and one more. -/
theorem Covers.left_le (h : t.Covers k X Y) {left top : Int} (all : ∀ p ∈ t.vertices, left ≤ p.x ∧ top ≤ p.y) :
    firstPixel (toOutput left k - (Y * 0x10000 + 0x8000 - toOutput top k) / 0x10000 - 1) ≤ X := by
  obtain ⟨u, hu, w, hw, edge, above, below⟩ := bound_between (t.leftEdge_eq k Y) h.top h.bottom
  have reach := Edge.le_xAt (lt_of_row_lt (Int.lt_of_le_of_lt above below)) (row_le_iff.1 above)
    (lt_row_iff.1 below).le
  have ends := le_min (toOutput_mono k (all u hu).1) (toOutput_mono k (all w hw).1)
  have height := toOutput_mono k (all u hu).2
  calc firstPixel (toOutput left k - (Y * 0x10000 + 0x8000 - toOutput top k) / 0x10000 - 1)
      ≤ (t.leftEdge k Y).column Y := by
        rw [edge]
        exact firstPixel_mono (by omega)
    _ ≤ X := h.left

end Triangle

/-! ## Textured triangles -/

namespace Canvas

open Triangle

/-- Painting spans changes no pixel that none of them holds. -/
theorem pixel?_foldl_paintTexels {u v : Canvas → Span → CoordinateRun} {texture : Texture} {X Y : Int}
    (spans : List Span) (c : Canvas) (out : ¬∃ s ∈ spans, s.Holds X Y) :
    (spans.foldl (fun c s => c.paintTexels s (u c s) (v c s) texture) c).pixel? X Y = c.pixel? X Y := by
  induction spans generalizing c with
  | nil => rfl
  | cons s spans ih =>
    simp only [List.mem_cons, exists_eq_or_imp, not_or] at out
    rw [List.foldl_cons, ih _ out.2, paintTexels_eq_paintSpan, pixel?_paintSpan, if_neg]
    rintro ⟨row, left, right, -⟩
    exact out.1 ⟨row.symm, left, right⟩

theorem pixel?_fillAffineTriangle_of_not_covers (c : Canvas) (t : Triangle) (texture : Texture) {X Y : Int}
    (out : ¬t.sorted.Covers c.scale X Y) : (c.fillAffineTriangle t texture).pixel? X Y = c.pixel? X Y := by
  obtain ⟨ab, bc⟩ := sorted_ordered t
  rw [fillAffineTriangle, pixel?_foldl_paintTexels]
  rw [holds_sortedSpans (Vertex.le_of_not_after ab) (Vertex.le_of_not_after bc)]
  exact fun held => out held.2

theorem fillAffineTriangle?_of_pos {c : Canvas} (pos : 0 < c.scale) (t : Triangle) (texture : Texture) :
    c.fillAffineTriangle? t texture = .ok (c.fillAffineTriangle t texture) :=
  if_neg fun zero => pos.ne' zero.1

theorem pixel?_fillTriangle_of_not_covers (c : Canvas) (t : Triangle) (color : UInt8) {X Y : Int}
    (out : ¬t.sorted.Covers c.scale X Y) : (c.fillTriangle t color).pixel? X Y = c.pixel? X Y := by
  rw [pixel?_fillTriangle, if_neg fun covered => out covered.2]

end Canvas

end Redraw

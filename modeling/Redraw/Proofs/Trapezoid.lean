import Mathlib.Tactic.Ring
import Redraw.Canvas.Trapezoid
import Redraw.Proofs.Canvas.Scale
import Redraw.Proofs.Canvas.Upscale
import Redraw.Proofs.Triangle.Coverage

/-!
# Trapezoids at every scale

A trapezoid covers, in its rows, the columns from its left to its right edge, and filling it sets these pixels
(`Canvas.pixel?_fillTrapezoid`). Edges are scaled before they are rounded down, so a column that an edge has at a large scale
tells the one that it has at native size: the last column of a block is covered in the first row of the block exactly if the
pixel is (`Trapezoid.covers_corner_iff`). The other pixels of a block may differ, unless both edges are upright and lie
between pixels (`Trapezoid.covers_block_iff`).
-/

namespace Redraw

namespace SideEdge

/-- The edge is upright and lies between two columns of pixels. -/
def IsUpright (e : SideEdge) : Prop := e.delta = 0 ∧ 256 ∣ e.start.toNat

variable {e : SideEdge} {k : Nat} {row i : Int}

/-- In the first row of a block, an edge is at or before the last column of the block exactly if it is at or before the
pixel. -/
theorem column_le_last_iff (pos : 0 < k) : e.column k (row * k) ≤ k * i + k - 1 ↔ e.column 1 row ≤ i := by
  have scaled : (e.start.toNat : Int) * k + signed16 e.delta * (row * k) =
      (e.start.toNat + signed16 e.delta * row) * k := by ring
  rw [column, column, scaled, scaled_ediv_le_last_iff pos (by decide), Int.natCast_one, mul_one]

theorem IsUpright.column_eq (upright : e.IsUpright) (k : Nat) (row : Int) : e.column k row = e.column 1 0 * k := by
  obtain ⟨still, n, whole⟩ := upright
  have zero : signed16 0 = 0 := by decide
  have scaled : (e.start.toNat : Int) * k = n * k * 0x100 := by
    rw [whole]
    push_cast
    ring
  have native : (e.start.toNat : Int) * (1 : Nat) = n * 0x100 := by
    rw [whole]
    push_cast
    ring
  rw [column, column, still, zero, zero_mul, zero_mul, add_zero, add_zero, scaled, native,
    Int.mul_ediv_cancel _ (by decide), Int.mul_ediv_cancel _ (by decide)]

end SideEdge

/-- The run as a run of pixels. -/
def TrapezoidSpan.toSpan (s : TrapezoidSpan) : Span := ⟨s.y, s.left, s.right⟩

namespace Trapezoid

variable {t : Trapezoid} {k : Nat} {X Y i j : Int}

/-! ## Covered pixels -/

/-- A trapezoid covers a pixel, wherever the picture ends. -/
@[mk_iff]
structure Covers (t : Trapezoid) (k : Nat) (X Y : Int) : Prop where
  top : t.top * k ≤ Y
  bottom : Y < (t.top + t.height) * k
  left : t.left.column k (Y - t.top * k) ≤ X
  right : X < t.right.column k (Y - t.top * k)

instance (t : Trapezoid) (k : Nat) (X Y : Int) : Decidable (t.Covers k X Y) := decidable_of_iff _ (covers_iff ..).symm

theorem holds_spans (inside : Screen.Contains k X Y) : (∃ s ∈ t.spans k, s.toSpan.Holds X Y) ↔ t.Covers k X Y := by
  obtain ⟨hX, hX', hY, hY'⟩ := inside
  have stop := Int.add_mul t.top t.height k
  simp only [spans, List.mem_filter, List.mem_map, mem_between, Bool.and_eq_true, decide_eq_true_eq, Span.Holds,
    TrapezoidSpan.toSpan, covers_iff]
  constructor
  · rintro ⟨s, ⟨⟨row, ⟨first, last⟩, rfl⟩, -⟩, rfl, left, right⟩
    simp only [rowSpan] at left right ⊢
    rw [add_sub_cancel_left]
    exact ⟨by omega, by omega, left, right⟩
  · rintro ⟨top, bottom, left, right⟩
    have row : t.top * k + (Y - t.top * k) = Y := by omega
    have meets : 0 < t.right.column k (Y - t.top * k) ∧ t.left.column k (Y - t.top * k) < (Screen.width * k : Nat) :=
      ⟨hX.trans_lt right, left.trans_lt hX'⟩
    exact ⟨t.rowSpan k (Y - t.top * k), ⟨⟨_, ⟨by omega, by omega⟩, rfl⟩, ⟨left.trans_lt right, meets.1⟩, meets.2⟩, row,
      left, right⟩

end Trapezoid

/-- Filling a trapezoid sets the pixels of the canvas that it covers, and no other pixel. -/
theorem Canvas.pixel?_fillTrapezoid (c : Canvas) (t : Trapezoid) (color : UInt8) (X Y : Int) :
    (c.fillTrapezoid t color).pixel? X Y =
      if Screen.Contains c.scale X Y ∧ t.Covers c.scale X Y then some color else c.pixel? X Y := by
  have spans : c.fillTrapezoid t color = ((t.spans c.scale).map TrapezoidSpan.toSpan).foldl
      (fun c s => c.fillSpan s.y s.left s.right color) c := by
    rw [List.foldl_map]
    rfl
  rw [spans, pixel?_foldl_fillSpan]
  refine if_congr (and_congr_right fun inside => ?_) rfl rfl
  simp only [← Trapezoid.holds_spans inside, List.mem_map, exists_exists_and_eq_and]

namespace Trapezoid

variable {t : Trapezoid} {k : Nat} {X Y i j : Int}

/-- Filling the trapezoid sets a pixel, on every canvas of the scale and with every color. -/
def Paints (t : Trapezoid) (k : Nat) (X Y : Int) : Prop :=
  ∀ (c : Canvas) (color : UInt8), c.scale = k → (c.fillTrapezoid t color).pixel? X Y = some color

theorem paints_iff : t.Paints k X Y ↔ Screen.Contains k X Y ∧ t.Covers k X Y := by
  refine Canvas.sets_iff (fun c color => c.fillTrapezoid t color) fun c color scale => ?_
  rw [Canvas.pixel?_fillTrapezoid, scale]

/-! ## Blocks -/

theorem covers_one_iff :
    t.Covers 1 i j ↔ t.top ≤ j ∧ j < t.top + t.height ∧ t.left.column 1 (j - t.top) ≤ i ∧
      i < t.right.column 1 (j - t.top) := by
  rw [covers_iff, Int.natCast_one, mul_one, mul_one]

/-- The last column of a block is covered, in the first row of the block, exactly if the pixel is. -/
theorem covers_corner_iff (pos : 0 < k) : t.Covers k (k * i + k - 1) (k * j) ↔ t.Covers 1 i j := by
  have row : k * j - t.top * k = (j - t.top) * k := by ring
  have left : t.left.column k ((j - t.top) * k) ≤ k * i + k - 1 ↔ t.left.column 1 (j - t.top) ≤ i :=
    SideEdge.column_le_last_iff pos
  have right : k * i + k - 1 < t.right.column k ((j - t.top) * k) ↔ i < t.right.column 1 (j - t.top) := by
    rw [← not_le, ← not_le, SideEdge.column_le_last_iff pos]
  rw [covers_iff, covers_one_iff, row, scaled_le_first_iff pos, first_lt_scaled_iff pos, left, right]

/-- If the edges are upright and lie between pixels, a block is covered exactly if the pixel is. -/
theorem covers_block_iff (pos : 0 < k) (left : t.left.IsUpright) (right : t.right.IsUpright) :
    t.Covers k X Y ↔ t.Covers 1 (X / k) (Y / k) := by
  have unit := Int.natCast_pos.2 pos
  rw [covers_iff, covers_one_iff, left.column_eq k, right.column_eq k, left.column_eq 1 (Y / k - t.top),
    right.column_eq 1 (Y / k - t.top), Int.natCast_one, mul_one, mul_one, Int.le_ediv_iff_mul_le unit,
    Int.le_ediv_iff_mul_le unit, Int.ediv_lt_iff_lt_mul unit, Int.ediv_lt_iff_lt_mul unit]

/-- **Trapezoids scale.** At native size a trapezoid paints the pixels of the screen that it covers. On a picture of any
scale, the last column of a block is painted in the first row of the block exactly if the pixel is painted at native size,
and then with the same color. If both edges are upright and lie between pixels, the picture is the one at native size with
every pixel as a block. -/
theorem scales_consistently (t : Trapezoid) (pos : 0 < k) :
    (∀ i j : Int, t.Paints 1 i j ↔ Screen.Contains 1 i j ∧ t.Covers 1 i j) ∧
      (∀ i j : Int, t.Paints k (k * i + k - 1) (k * j) ↔ t.Paints 1 i j) ∧
      ∀ color : UInt8,
        (∀ i j : Int, ((Canvas.blank k).fillTrapezoid t color).pixel? (k * i + k - 1) (k * j) =
          ((Canvas.blank 1).fillTrapezoid t color).pixel? i j) ∧
        (t.left.IsUpright → t.right.IsUpright →
          Canvas.Upscales ((Canvas.blank k).fillTrapezoid t color) ((Canvas.blank 1).fillTrapezoid t color)) := by
  refine ⟨fun i j => paints_iff, fun i j => ?_, fun color => ⟨fun i j => ?_, fun left right => ?_⟩⟩
  · rw [paints_iff, paints_iff, Screen.contains_corner_iff pos, covers_corner_iff pos]
  · have scale (k : Nat) : (Canvas.blank k).scale = k := rfl
    simp only [Canvas.pixel?_fillTrapezoid, Canvas.pixel?_blank, scale, Screen.contains_corner_iff pos, covers_corner_iff pos]
  · refine (Canvas.upscales_blank pos).recolor color (t.Covers 1) (by simp) (by simp) (fun X Y => ?_) fun x y =>
      Canvas.pixel?_fillTrapezoid ..
    rw [Canvas.pixel?_fillTrapezoid]
    exact if_congr (and_congr_right fun _ => covers_block_iff pos left right) rfl rfl

/-- A rectangle of ten by twenty pixels at scale three. -/
theorem scales_consistently_rectangle :
    let t : Trapezoid := ⟨12, 20, ⟨30 * 256, 0⟩, ⟨40 * 256, 0⟩⟩
    0 < 3 ∧ t.left.IsUpright ∧ t.right.IsUpright ∧ t.Paints 1 39 31 ∧ t.Paints 3 119 93 ∧
      Canvas.Upscales ((Canvas.blank 3).fillTrapezoid t 7) ((Canvas.blank 1).fillTrapezoid t 7) := by
  intro t
  have left : t.left.IsUpright := ⟨rfl, by decide⟩
  have right : t.right.IsUpright := ⟨rfl, by decide⟩
  obtain ⟨paints, corners, pictures⟩ := scales_consistently t (show 0 < 3 by decide)
  have native : t.Paints 1 39 31 := (paints 39 31).2 ⟨by decide, by decide⟩
  exact ⟨by decide, left, right, native, (corners 39 31).2 native, (pictures 7).2 left right⟩

end Trapezoid

end Redraw

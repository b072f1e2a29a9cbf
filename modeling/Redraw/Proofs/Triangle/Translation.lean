import Mathlib.Tactic.Ring
import Mathlib.Tactic.SplitIfs
import Redraw.Proofs.Reciprocal
import Redraw.Proofs.Triangle.Coverage

/-!
# Moved triangles

A triangle that is moved keeps the order of its vertices and the slopes of its edges, since both are told by differences of
coordinates. An edge is followed from its upper vertex, so if the triangle is moved by whole logical pixels, every column
that an edge has in a row moves by whole output pixels with it (`Edge.column_moved`), wherever the picture ends. So does
the set of pixels that the triangle covers (`Triangle.covers_moved`), and flat triangles move rigidly
(`Triangle.moves_rigidly`).
-/

namespace Redraw

theorem firstPixel_add (v n : Int) : firstPixel (v + n * 0x10000) = firstPixel v + n := by
  unfold firstPixel
  omega

/-- Eight eighths of a logical pixel are as many output pixels as the scale. -/
theorem toOutput_add (c i : Int) (k : Nat) : toOutput (c + 8 * i) k = toOutput c k + k * i * 0x10000 := by
  unfold toOutput
  ring

namespace Vertex

/-- The vertex moved by `dx` to the right and by `dy` down. -/
def moved (p : Vertex) (dx dy : Int) : Vertex := { p with x := p.x + dx, y := p.y + dy }

variable (p q : Vertex) (dx dy : Int)

@[simp]
theorem x_moved : (p.moved dx dy).x = p.x + dx := rfl

@[simp]
theorem y_moved : (p.moved dx dy).y = p.y + dy := rfl

@[simp]
theorem after_moved : (p.moved dx dy).after (q.moved dx dy) = p.after q := by
  rw [Bool.eq_iff_iff, after_iff, after_iff, x_moved, x_moved, y_moved, y_moved]
  omega

theorem row_moved (j : Int) (k : Nat) : (p.moved dx (8 * j)).row k = p.row k + k * j := by
  rw [row, y_moved, toOutput_add, firstPixel_add, row]

end Vertex

namespace Edge

/-- The edge moved in output space. -/
def moved (e : Edge) (dx dy : Int) : Edge := { e with x := e.x + dx, y := e.y + dy }

theorem xAt_moved (e : Edge) (dx dy y : Int) : (e.moved dx dy).xAt (y + dy) = e.xAt y + dx := by
  unfold xAt moved
  rw [Int.add_sub_add_right, Int.add_right_comm]

/-- An edge that is moved by whole output pixels has its columns moved by as many. -/
theorem column_moved (e : Edge) (m n Y : Int) :
    (e.moved (m * 0x10000) (n * 0x10000)).column (Y + n) = e.column Y + m := by
  have center : (Y + n) * 0x10000 + 0x8000 = Y * 0x10000 + 0x8000 + n * 0x10000 := by ring
  rw [column, center, xAt_moved, firstPixel_add, column]

theorem between_moved (p q : Vertex) (i j : Int) (k : Nat) :
    between (p.moved (8 * i) (8 * j)) (q.moved (8 * i) (8 * j)) k =
      (between p q k).moved (k * i * 0x10000) (k * j * 0x10000) := by
  simp only [between, moved, Vertex.x_moved, Vertex.y_moved, toOutput_add, Int.add_sub_add_right]

end Edge

namespace Triangle

/-- The triangle moved by `dx` to the right and by `dy` down. -/
def moved (t : Triangle) (dx dy : Int) : Triangle := ⟨t.a.moved dx dy, t.b.moved dx dy, t.c.moved dx dy⟩

/-- Sorting a moved triangle exchanges the same vertices. -/
theorem sorted_moved (t : Triangle) (dx dy : Int) : (t.moved dx dy).sorted = t.sorted.moved dx dy := by
  simp only [sorted, moved, Vertex.after_moved]
  -- both sides now make the same three comparisons
  split_ifs <;> simp_all

variable (t : Triangle) {k : Nat} {i j X Y : Int}

/-! ## Bounds -/

theorem onLeft_moved : (t.moved (8 * i) (8 * j)).onLeft = t.onLeft := by
  have upper : t.a.y + 8 * j = t.b.y + 8 * j ↔ t.a.y = t.b.y := Int.add_left_inj _
  have left : t.b.x + 8 * i < t.a.x + 8 * i ↔ t.b.x < t.a.x := Int.add_lt_add_iff_right _
  simp only [onLeft, middleOnLeft, moved, Edge.between_moved, Vertex.x_moved, Vertex.y_moved, upper, left]
  rfl

theorem shortEdge_moved :
    (t.moved (8 * i) (8 * j)).shortEdge k (Y + k * j) = (t.shortEdge k Y).moved (k * i * 0x10000) (k * j * 0x10000) := by
  have upper : Y + k * j < (t.b.moved (8 * i) (8 * j)).row k ↔ Y < t.b.row k := by
    rw [Vertex.row_moved, Int.add_lt_add_iff_right]
  simp only [shortEdge, moved, Edge.between_moved, upper]
  split <;> rfl

theorem longEdge_moved :
    (t.moved (8 * i) (8 * j)).longEdge k = (t.longEdge k).moved (k * i * 0x10000) (k * j * 0x10000) :=
  Edge.between_moved ..

theorem leftEdge_moved :
    (t.moved (8 * i) (8 * j)).leftEdge k (Y + k * j) = (t.leftEdge k Y).moved (k * i * 0x10000) (k * j * 0x10000) := by
  rw [leftEdge, leftEdge, onLeft_moved, shortEdge_moved, longEdge_moved]
  split <;> rfl

theorem rightEdge_moved :
    (t.moved (8 * i) (8 * j)).rightEdge k (Y + k * j) = (t.rightEdge k Y).moved (k * i * 0x10000) (k * j * 0x10000) := by
  rw [rightEdge, rightEdge, onLeft_moved, shortEdge_moved, longEdge_moved]
  split <;> rfl

/-- A triangle that is moved by whole logical pixels covers the pixels that it covered, moved alike. -/
theorem covers_moved : (t.moved (8 * i) (8 * j)).Covers k (X + k * i) (Y + k * j) ↔ t.Covers k X Y := by
  have top : (t.moved (8 * i) (8 * j)).a.row k = t.a.row k + k * j := t.a.row_moved ..
  have bottom : (t.moved (8 * i) (8 * j)).c.row k = t.c.row k + k * j := t.c.row_moved ..
  rw [covers_iff, covers_iff, leftEdge_moved, rightEdge_moved, Edge.column_moved, Edge.column_moved, top, bottom,
    Int.add_le_add_iff_right, Int.add_le_add_iff_right, Int.add_lt_add_iff_right, Int.add_lt_add_iff_right]

/-- **Flat triangles move rigidly.** On a picture of any scale, a triangle that is moved by whole logical pixels paints the
pixels that it painted before, moved by the same number of blocks. Only the pixels that leave the picture or come into it
are an exception. -/
theorem moves_rigidly (inside : Screen.Contains k X Y) (inside' : Screen.Contains k (X + k * i) (Y + k * j)) :
    (t.moved (8 * i) (8 * j)).Paints k (X + k * i) (Y + k * j) ↔ t.Paints k X Y := by
  rw [paints_iff, paints_iff, sorted_moved, covers_moved]
  exact and_congr (iff_of_true inside' inside) Iff.rfl

/-- The upper vertex is far to the left of the picture and above it, and more rows of the triangle come into sight when it is
moved. -/
theorem moves_rigidly_clipped :
    let t : Triangle := ⟨.flat (-50) (-30), .flat 90 10, .flat (-20) 60⟩
    Screen.Contains 2 4 3 ∧ Screen.Contains 2 (4 + (2 : Nat) * 5) (3 + (2 : Nat) * 7) ∧ t.Paints 2 4 3 ∧
      (t.moved (8 * 5) (8 * 7)).Paints 2 14 17 := by
  intro t
  have inside : Screen.Contains 2 4 3 := by decide
  have inside' : Screen.Contains 2 (4 + (2 : Nat) * 5) (3 + (2 : Nat) * 7) := by decide
  have sorted : t.sorted = t := by decide
  have covers : t.Covers 2 4 3 := by
    simp [covers_iff, leftEdge, rightEdge, onLeft, middleOnLeft, shortEdge, longEdge, Edge.column, Edge.xAt, Edge.between,
      slope, ratio, reciprocal_of_pos, Vertex.row, toOutput, firstPixel, Vertex.flat, t]
  have paints : t.Paints 2 4 3 := paints_iff.2 ⟨inside, sorted ▸ covers⟩
  exact ⟨inside, inside', paints, (moves_rigidly t inside inside').2 paints⟩

end Triangle

end Redraw

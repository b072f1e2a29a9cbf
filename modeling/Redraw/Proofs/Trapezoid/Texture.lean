import Redraw.Proofs.Trapezoid

/-!
# The texels of a trapezoid

A textured fill sets the pixels that a flat fill sets. The texel of a pixel is told by the row of the trapezoid that it lies
in and by its place between the two edges there, and both are counted from the trapezoid and not from the picture
(`Canvas.pixel?_fillTexturedTrapezoid`). So rows and columns that the picture cuts off do not shift the texture: moved by
whole pixels, a trapezoid takes its texels along (`Trapezoid.clipping_keeps_texture`).
-/

namespace Redraw

namespace SideEdge

/-- The edge moved by `n` pixels to the right. -/
def moved (e : SideEdge) (n : Int) : SideEdge := { e with start := .ofNat (e.start.toNat + 256 * n).toNat }

/-- Moved by `n` pixels, the edge still starts at a half word. -/
def Movable (e : SideEdge) (n : Int) : Prop := 0 ≤ e.start.toNat + 256 * n ∧ e.start.toNat + 256 * n < 65536

instance (e : SideEdge) (n : Int) : Decidable (e.Movable n) :=
  inferInstanceAs (Decidable (0 ≤ e.start.toNat + 256 * n ∧ e.start.toNat + 256 * n < 65536))

variable {e : SideEdge} {n : Int}

theorem Movable.start_moved (movable : e.Movable n) : ((e.moved n).start.toNat : Int) = e.start.toNat + 256 * n := by
  obtain ⟨nonneg, small⟩ := movable
  rw [moved, UInt16.toNat_ofNat_of_lt' ((Int.toNat_lt nonneg).2 small), Int.toNat_of_nonneg nonneg]

/-- An edge that is moved by whole pixels keeps its fraction, so all its columns move alike. -/
theorem Movable.column_moved (movable : e.Movable n) (k : Nat) (row : Int) :
    (e.moved n).column k row = e.column k row + n * k := by
  have moved : (e.start.toNat + 256 * n) * k + signed16 e.delta * row =
      e.start.toNat * k + signed16 e.delta * row + n * k * 0x100 := by ring
  rw [column, column, movable.start_moved]
  exact (congrArg (· / 0x100) moved).trans (Int.add_mul_ediv_right _ _ (by decide))

end SideEdge

/-- Painting runs gives a pixel that they hold the color that all runs of its row agree on. -/
theorem Canvas.pixel?_foldl_paintSpan {color : TrapezoidSpan → Int → UInt8} {X Y : Int} {v : UInt8}
    (spans : List TrapezoidSpan) (agree : ∀ s ∈ spans, s.y = Y → color s X = v) (c : Canvas) :
    (spans.foldl (fun c s => c.paintSpan s.y s.left s.right (color s)) c).pixel? X Y =
      if Screen.Contains c.scale X Y ∧ ∃ s ∈ spans, s.toSpan.Holds X Y then some v else c.pixel? X Y := by
  exact pixel?_foldl spans c fun d _ s mem => ⟨d.scale_paintSpan .., pixel?_paintSpan_of_color (s := s.toSpan) (agree s mem)⟩

namespace Trapezoid

variable {t : Trapezoid} {uv : TrapezoidUv} {texture : Address} {view : View} {k : Nat} {n m X Y : Int} {texel : UInt8}

/-- Where the texel of an output pixel is stored. -/
def texelAddress (t : Trapezoid) (uv : TrapezoidUv) (texture : Address) (k : Nat) (X Y : Int) : Address :=
  uv.address k texture (t.rowSpan k (Y - t.top * k)) X

theorem eq_rowSpan_of_mem_spans {s : TrapezoidSpan} (mem : s ∈ t.spans k) : s = t.rowSpan k (s.y - t.top * k) := by
  obtain ⟨row, -, rfl⟩ := List.mem_map.1 (List.mem_filter.1 mem).1
  rw [rowSpan, add_sub_cancel_left, rowSpan]

end Trapezoid

/-- A textured fill gives each pixel that the trapezoid covers its texel, and changes no other pixel. -/
theorem Canvas.pixel?_fillTexturedTrapezoid (c : Canvas) (t : Trapezoid) (uv : TrapezoidUv) (texture : Address)
    (view : View) (X Y : Int) :
    (c.fillTexturedTrapezoid t uv texture view).pixel? X Y =
      if Screen.Contains c.scale X Y ∧ t.Covers c.scale X Y then
        some (view.read (t.texelAddress uv texture c.scale X Y))
      else c.pixel? X Y := by
  rw [fillTexturedTrapezoid, pixel?_foldl_paintSpan (v := view.read (t.texelAddress uv texture c.scale X Y))]
  · exact if_congr (and_congr_right Trapezoid.holds_spans) rfl rfl
  · rintro s mem rfl
    rw [Trapezoid.texelAddress, ← Trapezoid.eq_rowSpan_of_mem_spans mem]

namespace Trapezoid

variable {t : Trapezoid} {uv : TrapezoidUv} {texture : Address} {view : View} {k : Nat} {n m X Y : Int} {texel : UInt8}

/-- A textured fill gives the pixel this texel, on every canvas of the scale. -/
def PaintsTexel (t : Trapezoid) (uv : TrapezoidUv) (texture : Address) (view : View) (k : Nat) (X Y : Int)
    (texel : UInt8) : Prop :=
  ∀ c : Canvas, c.scale = k → (c.fillTexturedTrapezoid t uv texture view).pixel? X Y = some texel

theorem paintsTexel_iff :
    t.PaintsTexel uv texture view k X Y texel ↔
      t.Paints k X Y ∧ texel = view.read (t.texelAddress uv texture k X Y) := by
  rw [paints_iff]
  constructor
  · intro paints
    -- a canvas that shows another color there tells a pixel that is painted from one that is not
    have shown := paints ((Canvas.blank k).setPixel X Y (texel + 1)) (Canvas.scale_setPixel ..)
    rw [Canvas.pixel?_fillTexturedTrapezoid, Canvas.scale_setPixel, Canvas.pixel?_setPixel, Canvas.pixel?_blank] at shown
    split at shown
    · rename_i covered
      exact ⟨covered, (Option.some.inj shown).symm⟩
    · split at shown
      · simp at shown
      · rename_i out
        rw [if_neg fun inside : Screen.Contains k X Y => out ⟨rfl, rfl, inside⟩] at shown
        cases shown
  · rintro ⟨covered, rfl⟩ c rfl
    rw [Canvas.pixel?_fillTexturedTrapezoid, if_pos covered]

/-! ## Moved trapezoids -/

/-- The trapezoid moved by `n` pixels to the right and by `m` pixels down. -/
def moved (t : Trapezoid) (n m : Int) : Trapezoid :=
  { t with top := t.top + m, left := t.left.moved n, right := t.right.moved n }

section Moved

variable (left : t.left.Movable n) (right : t.right.Movable n)

include left right

theorem rowSpan_moved (row : Int) :
    (t.moved n m).rowSpan k row =
      { t.rowSpan k row with
        y := (t.rowSpan k row).y + m * k
        left := (t.rowSpan k row).left + n * k
        right := (t.rowSpan k row).right + n * k } := by
  have top : (t.top + m) * k + row = t.top * k + row + m * k := by ring
  simp only [rowSpan, moved, left.column_moved, right.column_moved, top]

theorem covers_moved : (t.moved n m).Covers k (X + n * k) (Y + m * k) ↔ t.Covers k X Y := by
  have top : (t.moved n m).top * k = t.top * k + m * k := Int.add_mul ..
  have bottom : ((t.moved n m).top + (t.moved n m).height) * k = (t.top + t.height) * k + m * k := by
    simp only [moved]
    ring
  have first (row : Int) : (t.moved n m).left.column k row = t.left.column k row + n * k := left.column_moved k row
  have last (row : Int) : (t.moved n m).right.column k row = t.right.column k row + n * k := right.column_moved k row
  rw [covers_iff, covers_iff, bottom, top, first, last, Int.add_sub_add_right, Int.add_le_add_iff_right,
    Int.add_le_add_iff_right, Int.add_lt_add_iff_right, Int.add_lt_add_iff_right]

/-- A pixel that is moved with the trapezoid keeps its row and its place between the edges, and so its texel. -/
theorem texelAddress_moved :
    (t.moved n m).texelAddress uv texture k (X + n * k) (Y + m * k) = t.texelAddress uv texture k X Y := by
  have top : (t.moved n m).top * k = t.top * k + m * k := Int.add_mul ..
  rw [texelAddress, top, Int.add_sub_add_right, rowSpan_moved left right, texelAddress]
  simp only [TrapezoidUv.address, Int.add_sub_add_right]

end Moved

/-- **Clipping does not shift a texture.** On a picture of any scale, a textured trapezoid that is moved by whole pixels paints
the pixels that it painted before, moved by as many blocks, and each with the same texel, as long as they lie on the picture
before and after. It paints exactly the pixels that a flat fill of it paints, and changes no other pixel. -/
theorem clipping_keeps_texture (t : Trapezoid) (uv : TrapezoidUv) (texture : Address) (view : View) (k : Nat) :
    (∀ n m X Y : Int, t.left.Movable n → t.right.Movable n → Screen.Contains k X Y →
      Screen.Contains k (X + n * k) (Y + m * k) → ∀ texel,
        (t.moved n m).PaintsTexel uv texture view k (X + n * k) (Y + m * k) texel ↔
          t.PaintsTexel uv texture view k X Y texel) ∧
      (∀ X Y, (∃ texel, t.PaintsTexel uv texture view k X Y texel) ↔ t.Paints k X Y) ∧
      ∀ (c : Canvas) (X Y : Int), c.scale = k → ¬t.Paints k X Y →
        (c.fillTexturedTrapezoid t uv texture view).pixel? X Y = c.pixel? X Y := by
  refine ⟨fun n m X Y left right inside inside' texel => ?_, fun X Y => ?_, ?_⟩
  · rw [paintsTexel_iff, paintsTexel_iff, paints_iff, paints_iff, covers_moved left right, texelAddress_moved left right]
    simp only [inside, inside']
  · simp only [paintsTexel_iff, exists_and_left, exists_eq, and_true]
  · rintro c X Y rfl out
    rw [Canvas.pixel?_fillTexturedTrapezoid, if_neg (mt paints_iff.2 out)]

/-- The left edge of this trapezoid runs out of the picture in the first rows, of which two are above the picture. -/
theorem clipping_keeps_texture_corner :
    let t : Trapezoid := ⟨-2, 20, ⟨256, 0xFE00⟩, ⟨40 * 256, 0⟩⟩
    let uv := TrapezoidUv.ofWords 0x00000180 0x40000180 0x0000FF80 0x0000FF80
    let view := View.ofAddress (.withCartridge ⟨#[0, 0, 0, 0, 9]⟩ true) 0x08000000
    t.left.Movable 5 ∧ t.right.Movable 5 ∧ Screen.Contains 3 0 0 ∧
      Screen.Contains 3 (0 + 5 * (3 : Nat)) (0 + 7 * (3 : Nat)) ∧ t.PaintsTexel uv 0x08000000 view 3 0 0 9 ∧
      (t.moved 5 7).PaintsTexel uv 0x08000000 view 3 15 21 9 := by
  intro t uv view
  have left : t.left.Movable 5 := by decide
  have right : t.right.Movable 5 := by decide
  have inside : Screen.Contains 3 0 0 := by decide
  have inside' : Screen.Contains 3 (0 + 5 * (3 : Nat)) (0 + 7 * (3 : Nat)) := by decide
  have paints : t.PaintsTexel uv 0x08000000 view 3 0 0 9 :=
    paintsTexel_iff.2 ⟨paints_iff.2 ⟨inside, by decide⟩, by decide⟩
  obtain ⟨moves, -⟩ := clipping_keeps_texture t uv 0x08000000 view 3
  exact ⟨left, right, inside, inside', paints, (moves 5 7 0 0 left right inside inside' 9).2 paints⟩

end Trapezoid

end Redraw

import Redraw.Canvas
import Redraw.Machine.View

/-!
# Trapezoids

A trapezoid is a stack of rows between two straight edges. Edges are horizontal positions with eight fraction
bits and move by a constant amount per logical row. At scale `k` a logical row becomes `k` output rows, and the
edges move by the same amount per output row, since positions are stretched as well.
-/

namespace Redraw

/-- An edge: the position in the first row and the movement per row, with eight fraction bits. -/
structure SideEdge where
  start : UInt16
  delta : UInt16
  deriving DecidableEq, Repr, Inhabited

namespace SideEdge

/-- An edge in one word, the position in the upper half. -/
def ofWord (w : UInt32) : SideEdge := ⟨upperHalf w, lowerHalf w⟩

/-- The column of the edge in an output row, rounded down. -/
def column (e : SideEdge) (scale : Nat) (row : Int) : Int :=
  ((e.start.toNat : Int) * scale + signed16 e.delta * row) / 0x100

end SideEdge

/-- Rows between two edges. -/
structure Trapezoid where
  /-- The first logical row. -/
  top : Int
  /-- The number of logical rows. -/
  height : Int
  left : SideEdge
  right : SideEdge
  deriving DecidableEq, Repr, Inhabited

/-- A run `[left, right)` of a trapezoid in output row `y`, its row number `row` counted from the top of the
trapezoid. The run may reach past the picture on both sides. -/
structure TrapezoidSpan where
  y : Int
  row : Int
  left : Int
  right : Int
  deriving DecidableEq, Repr

namespace Trapezoid

/-- The trapezoid that a machine describes in its registers. -/
def ofRegisters (top : Int) (height left right : UInt32) : Trapezoid :=
  ⟨top, signed32 height, .ofWord left, .ofWord right⟩

def rowSpan (t : Trapezoid) (scale : Nat) (row : Int) : TrapezoidSpan :=
  ⟨t.top * scale + row, row, t.left.column scale row, t.right.column scale row⟩

/-- The runs that meet a picture at a scale, from top to bottom. -/
def spans (t : Trapezoid) (scale : Nat) : List TrapezoidSpan :=
  let top := t.top * scale
  let first := max (-top) 0
  let last := min (t.height * scale) ((Screen.height * scale : Nat) - top)
  ((between first last).map (t.rowSpan scale)).filter fun s =>
    s.left < s.right && 0 < s.right && s.left < (Screen.width * scale : Nat)

end Trapezoid

/-- A texture coordinate of a trapezoid: the values on both edges in the first row and their movements per logical
row, with eight fraction bits. -/
structure EdgeCoordinate where
  left : UInt16
  right : UInt16
  leftDelta : UInt16
  rightDelta : UInt16
  deriving DecidableEq, Repr, Inhabited

namespace EdgeCoordinate

def onEdge (start delta : UInt16) (scale : Nat) (row : Int) : Int :=
  start.toNat + (signed16 delta * row).tdiv scale

/-- The value `step` of `steps` of the way from the left to the right edge of an output row, as a half word. -/
def value (e : EdgeCoordinate) (scale : Nat) (row step steps : Int) : Int :=
  let left := onEdge e.left e.leftDelta scale row
  let right := onEdge e.right e.rightDelta scale row
  low16 (left + ((right - left) * step).tdiv steps)

end EdgeCoordinate

structure TrapezoidUv where
  u : EdgeCoordinate
  v : EdgeCoordinate
  deriving DecidableEq, Repr, Inhabited

namespace TrapezoidUv

/-- Texture coordinates in four words, `u` in the upper and `v` in the lower half of each. -/
def ofWords (left right leftDelta rightDelta : UInt32) : TrapezoidUv where
  u := ⟨upperHalf left, upperHalf right, upperHalf leftDelta, upperHalf rightDelta⟩
  v := ⟨lowerHalf left, lowerHalf right, lowerHalf leftDelta, lowerHalf rightDelta⟩

/-- The address of the texel of column `x` of a run, in a texture of 256 texels a row. -/
def address (uv : TrapezoidUv) (scale : Nat) (texture : Address) (s : TrapezoidSpan) (x : Int) : Address :=
  let u := uv.u.value scale s.row (x - s.left) (s.right - s.left)
  let v := uv.v.value scale s.row (x - s.left) (s.right - s.left)
  texture + addressOf (v / 0x100 * 0x100) + addressOf (u / 0x100)

end TrapezoidUv

namespace Canvas

def fillTrapezoid (c : Canvas) (t : Trapezoid) (color : UInt8) : Canvas :=
  (t.spans c.scale).foldl (fun c s => c.fillSpan s.y s.left s.right color) c

def fillTexturedTrapezoid (c : Canvas) (t : Trapezoid) (uv : TrapezoidUv) (texture : Address) (view : View) :
    Canvas :=
  let scale := c.scale
  (t.spans scale).foldl
    (fun c s => c.paintSpan s.y s.left s.right fun x => view.read (uv.address scale texture s x)) c

end Canvas

end Redraw

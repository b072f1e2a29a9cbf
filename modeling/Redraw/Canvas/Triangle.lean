import Redraw.Canvas
import Redraw.Geometry.Vertex
import Redraw.Reciprocal

/-!
# Triangles

A triangle is split at its middle vertex into two trapezoids, and each of them is walked row by row in output
space. A pixel is covered when its center lies inside: rows and columns start at the first center at or after an
edge and stop before the next one.
-/

namespace Redraw

/-- A run of pixels `[left, right)` of a row. -/
structure Span where
  y : Int
  left : Int
  right : Int
  deriving DecidableEq, Repr

/-- The edge of a triangle in output space, with sixteen fraction bits, from its upper vertex on. -/
structure Edge where
  x : Int
  y : Int
  slope : Int
  deriving DecidableEq, Repr

/-- Eighths of a logical pixel as output pixels with sixteen fraction bits. -/
def toOutput (c : Int) (scale : Nat) : Int := c * scale * 0x2000

namespace Edge

def between (upper lower : Vertex) (scale : Nat) : Edge where
  x := toOutput upper.x scale
  y := toOutput upper.y scale
  slope := Redraw.slope (lower.x - upper.x) (lower.y - upper.y)

/-- Where the edge meets the height `y`, rounded down. -/
def xAt (e : Edge) (y : Int) : Int := e.x + e.slope * (y - e.y) / 0x10000

end Edge

namespace Vertex

/-- Whether a vertex comes after another from top to bottom, then from left to right. -/
def after (p q : Vertex) : Bool := q.y < p.y || (p.y == q.y && q.x < p.x)

end Vertex

namespace Triangle

/-- The vertices from top to bottom, then from left to right. -/
def sorted (t : Triangle) : Triangle :=
  let t := if t.a.after t.b then ⟨t.b, t.a, t.c⟩ else t
  let t := if t.a.after t.c then ⟨t.c, t.b, t.a⟩ else t
  if t.b.after t.c then ⟨t.a, t.c, t.b⟩ else t

/-- The run of row `y` between two edges, drawn back to `width` columns. -/
def rowSpan (width : Nat) (left right : Edge) (y : Int) : Span :=
  let center := y * 0x10000 + 0x8000
  ⟨y, clamp (firstPixel (left.xAt center)) 0 width, clamp (firstPixel (right.xAt center)) 0 width⟩

/-- The runs of the rows between two vertices and two edges that lie on a picture. -/
def halfSpans (width height scale : Nat) (upper lower : Vertex) (left right : Edge) : List Span :=
  let first := max (firstPixel (toOutput upper.y scale)) 0
  let last := min (firstPixel (toOutput lower.y scale)) height
  ((Redraw.between first last).map (rowSpan width left right)).filter fun s => s.left < s.right

/-- Whether the middle vertex of a sorted triangle lies on its left side. -/
def middleOnLeft (t : Triangle) (ab ac : Edge) : Bool :=
  if t.a.y = t.b.y then t.b.x < t.a.x else ab.slope < ac.slope

/-- The runs of a sorted triangle that lie on a picture, from top to bottom. -/
def sortedSpans (width height scale : Nat) (t : Triangle) : List Span :=
  if t.a.y = t.c.y then []
  else
    let ab := Edge.between t.a t.b scale
    let bc := Edge.between t.b t.c scale
    let ac := Edge.between t.a t.c scale
    if t.middleOnLeft ab ac then
      halfSpans width height scale t.a t.b ab ac ++ halfSpans width height scale t.b t.c bc ac
    else
      halfSpans width height scale t.a t.b ac ab ++ halfSpans width height scale t.b t.c ac bc

/-- The runs of a triangle that lie on a picture, from top to bottom. -/
def spans (width height scale : Nat) (t : Triangle) : List Span := sortedSpans width height scale t.sorted

end Triangle

def Canvas.fillTriangle (c : Canvas) (t : Triangle) (color : UInt8) : Canvas :=
  (t.spans c.width c.height c.scale).foldl (fun c s => c.fillSpan s.y s.left s.right color) c

end Redraw

import Redraw.Geometry.Polygon
import Redraw.Reciprocal

/-!
# Clipping

A polygon is cut along the sides of a viewport, one side after the other, and only along those that its flags
name. A vertex on a side is inside. Where an edge of the polygon crosses a side, the crossing is reckoned from
the end with the lower coordinate, so that an edge that two polygons share is cut at the same vertex in both.
-/

namespace Redraw

/-- The sides that a primitive may cross, one bit each. -/
structure ClipFlags where
  bits : UInt8
  deriving DecidableEq, Repr, Inhabited

namespace ClipFlags

def left : ClipFlags := ⟨1⟩

def right : ClipFlags := ⟨2⟩

def top : ClipFlags := ⟨4⟩

def bottom : ClipFlags := ⟨8⟩

def all : ClipFlags := ⟨15⟩

/-- Whether every side of `other` is named. -/
def contains (flags other : ClipFlags) : Bool := flags.bits &&& other.bits == other.bits

def union (a b : ClipFlags) : ClipFlags := ⟨a.bits ||| b.bits⟩

end ClipFlags

/-- A clip rectangle; all bounds belong to it. -/
structure Viewport where
  left : Int
  top : Int
  right : Int
  bottom : Int
  deriving DecidableEq, Repr, Inhabited

/-- A side of a clip rectangle, with its coordinate. -/
inductive ClipSide where
  | left (x : Int)
  | right (x : Int)
  | top (y : Int)
  | bottom (y : Int)
  deriving DecidableEq, Repr

namespace ClipSide

/-- Whether a vertex is on the inner side or on the side itself. -/
def inside (s : ClipSide) (p : Vertex) : Bool :=
  match s with
  | .left x => x ≤ p.x
  | .right x => p.x ≤ x
  | .top y => y ≤ p.y
  | .bottom y => p.y ≤ y

def across (s : ClipSide) (p : Vertex) : Int :=
  match s with
  | .left _ | .right _ => p.x
  | .top _ | .bottom _ => p.y

def coordinate : ClipSide → Int
  | .left c | .right c | .top c | .bottom c => c

/-- Moves a vertex onto the side. -/
def snap (s : ClipSide) (p : Vertex) : Vertex :=
  match s with
  | .left x | .right x => { p with x }
  | .top y | .bottom y => { p with y }

/-- Where the edge from the lower end `p` to the upper end `q` crosses the side. -/
def crossingUp (s : ClipSide) (p q : Vertex) : Vertex :=
  let t := ratio (s.coordinate - s.across p) (s.across q - s.across p)
  s.snap ⟨lerp p.x q.x t, lerp p.y q.y t, lerp p.u q.u t, lerp p.v q.v t⟩

/-- Where the edge between two vertices crosses the side. -/
def crossing (s : ClipSide) (p q : Vertex) : Vertex :=
  if s.across p ≤ s.across q then s.crossingUp p q else s.crossingUp q p

/-- What remains of the edge from `previous` to `current`, without its first end. -/
def cutEdge (s : ClipSide) (previous current : Vertex) : List Vertex :=
  match s.inside previous, s.inside current with
  | true, true => [current]
  | false, true => [s.crossing previous current, current]
  | true, false => [s.crossing previous current]
  | false, false => []

/-- The vertices of a closed polygon, each paired with the one before it. -/
def edges (vertices : List Vertex) : List (Vertex × Vertex) :=
  match vertices.getLast? with
  | some last => (last :: vertices.dropLast).zip vertices
  | none => []

/-- The vertices of a polygon cut along the side. -/
def cut (s : ClipSide) (vertices : List Vertex) : List Vertex :=
  (edges vertices).flatMap fun (previous, current) => s.cutEdge previous current

end ClipSide

namespace Viewport

/-- The sides of a viewport in the order in which they cut, with their flags. -/
def sides (v : Viewport) : List (ClipFlags × ClipSide) :=
  [(.left, .left v.left), (.right, .right v.right), (.top, .top v.top), (.bottom, .bottom v.bottom)]

end Viewport

namespace Polygon

/-- Cuts along a side if there is an area left and the flags name the side. -/
def clipStep (flags : ClipFlags) (c : Collected) (side : ClipFlags × ClipSide) : Collected :=
  if 3 ≤ c.polygon.size ∧ flags.contains side.1 then
    let next := collect (side.2.cut c.polygon.toList)
    { next with dropped := c.dropped + next.dropped }
  else c

/-- The part of a polygon inside a viewport, empty when there is no area left. -/
def clip (p : Polygon) (viewport : Viewport) (flags : ClipFlags) : Collected :=
  let c := viewport.sides.foldl (clipStep flags) ⟨p, 0⟩
  if c.polygon.size < 3 then { c with polygon := c.polygon.clear } else c

end Polygon

def Triangle.clip (t : Triangle) (viewport : Viewport) (flags : ClipFlags) : Polygon.Collected :=
  (Polygon.collect [t.a, t.b, t.c]).polygon.clip viewport flags

end Redraw

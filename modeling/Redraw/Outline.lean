import Redraw.Rgba

/-!
# Outlines

Rectangles that are queued while a frame is drawn and outlined on it, in order, when it is committed. They are
given in logical pixels; their right and bottom sides belong to them. A rectangle that reaches past the screen is
outlined along the border of the screen there.
-/

namespace Redraw

/-- A rectangle to outline, in logical pixels. -/
structure Outline where
  x : Int
  y : Int
  width : Int
  height : Int
  color : Color
  deriving DecidableEq, Repr, Inhabited

namespace Outline

/-- The sides of a rectangle in output pixels, all inclusive. -/
structure Sides where
  left : Int
  top : Int
  right : Int
  bottom : Int
  deriving DecidableEq, Repr

def sides (o : Outline) (scale : Nat) : Sides where
  left := o.x * scale
  top := o.y * scale
  right := (o.x + o.width) * scale
  bottom := (o.y + o.height) * scale

def Sides.meetScreen (s : Sides) (scale : Nat) : Bool :=
  0 ≤ s.right && s.left < (Screen.width * scale : Nat) && 0 ≤ s.bottom
    && s.top < (Screen.height * scale : Nat)

def Sides.clip (s : Sides) (scale : Nat) : Sides where
  left := max s.left 0
  top := max s.top 0
  right := min s.right ((Screen.width * scale : Nat) - 1)
  bottom := min s.bottom ((Screen.height * scale : Nat) - 1)

def Sides.points (s : Sides) : List (Int × Int) :=
  (between s.left (s.right + 1)).flatMap (fun x => [(x, s.top), (x, s.bottom)])
    ++ (between s.top (s.bottom + 1)).flatMap fun y => [(s.left, y), (s.right, y)]

/-- The pixels that a rectangle outlines at a scale; none for a negative size or off the screen. -/
def points (o : Outline) (scale : Nat) : List (Int × Int) :=
  let s := o.sides scale
  if 0 ≤ o.width ∧ 0 ≤ o.height ∧ s.meetScreen scale then (s.clip scale).points else []

def draw (p : Rgba) (o : Outline) : Rgba :=
  (o.points p.scale).foldl (fun p point => p.plot point.1 point.2 o.color) p

/-- Outlines the rectangles of a queue, in order. -/
def drawAll (queue : List Outline) (p : Rgba) : Rgba := queue.foldl draw p

end Outline

end Redraw

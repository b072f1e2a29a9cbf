/-!
# Engines

The three families of games that can be drawn. Every family has its own way of drawing, and with it its own
handler.
-/

namespace Redraw

inductive Engine where
  /-- Scanline trapezoids and sprites in the frame in the back. -/
  | v3d
  /-- A linked stream of triangles and occluders. -/
  | drome
  /-- Flat regions between two edges. -/
  | downhillJam
  deriving DecidableEq, Repr

namespace Engine

def name : Engine → String
  | .v3d => "v3d"
  | .drome => "drome"
  | .downhillJam => "downhill-jam"

/-- The engines in the order in which they are offered a title. -/
def all : List Engine := [.v3d, .drome, .downhillJam]

end Engine

end Redraw

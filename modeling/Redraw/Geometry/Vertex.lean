/-!
# Vertices

Positions and texture coordinates are in eighths: of a pixel and of a texel.
-/

namespace Redraw

structure Vertex where
  x : Int
  y : Int
  u : Int
  v : Int
  deriving DecidableEq, Repr, Inhabited

namespace Vertex

def flat (x y : Int) : Vertex := ⟨x, y, 0, 0⟩

def text (p : Vertex) : String := s!"({p.x}, {p.y})"

instance : ToString Vertex := ⟨text⟩

end Vertex

structure Triangle where
  a : Vertex
  b : Vertex
  c : Vertex
  deriving DecidableEq, Repr, Inhabited

end Redraw

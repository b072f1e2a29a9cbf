import Redraw.Bounded
import Redraw.Geometry.Vertex

/-!
# Polygons

A polygon is a bounded stack of vertices in their order around it. It is drawn as a fan of triangles around its
first vertex.
-/

namespace Redraw

def polygonCapacity : Nat := 64

abbrev Polygon := Bounded polygonCapacity Vertex

namespace Polygon

/-- A polygon and the number of vertices that found it full and were dropped. -/
structure Collected where
  polygon : Polygon
  dropped : Nat

/-- Adds a vertex, or counts it as dropped. -/
def Collected.add (c : Collected) (p : Vertex) : Collected :=
  match c.polygon.push? p with
  | some polygon => { c with polygon }
  | none => { c with dropped := c.dropped + 1 }

/-- The polygon of a list of vertices, as many as there is room for. -/
def collect (vertices : List Vertex) : Collected :=
  vertices.foldl Collected.add ⟨Bounded.empty, 0⟩

/-- The triangle of the first of a list of vertices and those at `i` and `i + 1`. -/
def fanTriangle (vertices : List Vertex) (i : Nat) : Triangle :=
  ⟨vertices.getD 0 default, vertices.getD i default, vertices.getD (i + 1) default⟩

/-- The fan around the first vertex, the last triangle of it first. -/
def fan (p : Polygon) : List Triangle :=
  (List.range (p.size - 2)).reverse.map fun i => fanTriangle p.toList (i + 1)

end Polygon

end Redraw

import Redraw.Geometry.Clip
import Redraw.Proofs.Checked.Triangle

/-!
# Checked clipping

A polygon is walked by the indices of its vertices, each with the one before it around the polygon, and drawn as a fan by
indices again. None of them leaves the polygon, and every crossing divides by a reciprocal that there is.
-/

namespace Redraw.Checked

/-! ## Crossings -/

def crossingUp (s : ClipSide) (p q : Vertex) : Checked Vertex := do
  let t ← ratio (s.coordinate - s.across p) (s.across q - s.across p)
  return s.snap ⟨lerp p.x q.x t, lerp p.y q.y t, lerp p.u q.u t, lerp p.v q.v t⟩

def crossing (s : ClipSide) (p q : Vertex) : Checked Vertex :=
  if s.across p ≤ s.across q then crossingUp s p q else crossingUp s q p

def cutEdge (s : ClipSide) (previous current : Vertex) : Checked (List Vertex) := do
  match s.inside previous, s.inside current with
  | true, true => return [current]
  | false, true => return [← crossing s previous current, current]
  | true, false => return [← crossing s previous current]
  | false, false => return []

theorem crossingUp_eq (s : ClipSide) (p q : Vertex) : crossingUp s p q = .ok (s.crossingUp p q) := by
  rw [crossingUp, ratio_eq]
  rfl

theorem crossing_eq (s : ClipSide) (p q : Vertex) : crossing s p q = .ok (s.crossing p q) := by
  unfold crossing ClipSide.crossing
  split
  · exact crossingUp_eq s p q
  · exact crossingUp_eq s q p

theorem cutEdge_eq (s : ClipSide) (p q : Vertex) : cutEdge s p q = .ok (s.cutEdge p q) := by
  unfold cutEdge ClipSide.cutEdge
  rw [crossing_eq]
  cases s.inside p <;> cases s.inside q <;> rfl

/-! ## Edges -/

def edges (vertices : List Vertex) : Checked (List (Vertex × Vertex)) :=
  vertices.zipIdx.mapM fun (current, i) => do
    let previous ← remainder (i + vertices.length - 1) vertices.length
    return (← item vertices previous, current)

def cut (s : ClipSide) (vertices : List Vertex) : Checked (List Vertex) := do
  let parts ← (← edges vertices).mapM fun (previous, current) => cutEdge s previous current
  return parts.flatten

variable {vertices : List Vertex}

theorem item_of_lt {i : Nat} (lt : i < vertices.length) : item vertices i = .ok (vertices.getD i default) := by
  have vertex := List.getElem?_eq_getElem lt
  rw [List.getD_eq_getElem?_getD, vertex]
  exact item_of_getElem? vertex

/-- The vertex before each vertex around a closed polygon. -/
theorem getElem?_previous {i : Nat} {last : Vertex} (ends : vertices.getLast? = some last) (lt : i < vertices.length) :
    (last :: vertices.dropLast)[i]? =
      some (vertices.getD ((i + vertices.length - 1) % vertices.length) default) := by
  cases i with
  | zero =>
    rw [List.getLast?_eq_getElem?] at ends
    rw [Nat.zero_add, Nat.mod_eq_of_lt (by omega), List.getD_eq_getElem?_getD, ends]
    rfl
  | succ i =>
    have wrapped : (i + 1 + vertices.length - 1) % vertices.length = i := by
      rw [show i + 1 + vertices.length - 1 = i + vertices.length by omega, Nat.add_mod_right,
        Nat.mod_eq_of_lt (by omega)]
    rw [wrapped, List.getElem?_cons_succ, List.getElem?_dropLast, if_pos (by omega), List.getD_eq_getElem?_getD,
      List.getElem?_eq_getElem (by omega)]
    rfl

theorem map_previous (vertices : List Vertex) :
    vertices.zipIdx.map (fun (current, i) =>
      (vertices.getD ((i + vertices.length - 1) % vertices.length) default, current)) = ClipSide.edges vertices := by
  unfold ClipSide.edges
  cases ends : vertices.getLast? with
  | none =>
    rw [List.getLast?_eq_none_iff.1 ends]
    rfl
  | some last =>
    refine List.ext_getElem? fun i => ?_
    rw [List.getElem?_map, List.getElem?_zipIdx]
    by_cases lt : i < vertices.length
    · have pair : ((last :: vertices.dropLast).zip vertices)[i]? =
          some (vertices.getD ((i + vertices.length - 1) % vertices.length) default, vertices[i]) :=
        List.getElem?_zip_eq_some.2 ⟨getElem?_previous ends lt, List.getElem?_eq_getElem lt⟩
      rw [pair, List.getElem?_eq_getElem lt]
      simp
    · rw [List.getElem?_eq_none (by omega), List.getElem?_eq_none (by simp; omega)]
      rfl

theorem edges_eq (vertices : List Vertex) : edges vertices = .ok (ClipSide.edges vertices) := by
  rw [← map_previous]
  refine mapM_eq fun (current, i) mem => ?_
  have lt : i < vertices.length := by
    have := (List.mem_zipIdx mem).2.1
    omega
  have ne : vertices.length ≠ 0 := by omega
  dsimp only
  rw [show remainder (i + vertices.length - 1) vertices.length = .ok _ from if_neg ne, ok_bind,
    item_of_lt (Nat.mod_lt _ (by omega))]
  rfl

theorem cut_eq (s : ClipSide) (vertices : List Vertex) : cut s vertices = .ok (s.cut vertices) := by
  rw [cut, edges_eq, ok_bind, mapM_eq fun edge _ => cutEdge_eq s edge.1 edge.2]
  rfl

/-! ## Polygons -/

def clipStep (flags : ClipFlags) (c : Polygon.Collected) (side : ClipFlags × ClipSide) : Checked Polygon.Collected :=
  if 3 ≤ c.polygon.size ∧ flags.contains side.1 then do
    let next := Polygon.collect (← cut side.2 c.polygon.toList)
    return { next with dropped := c.dropped + next.dropped }
  else return c

def clip (t : Triangle) (viewport : Viewport) (flags : ClipFlags) : Checked Polygon.Collected := do
  let c ← viewport.sides.foldlM (clipStep flags) ⟨(Polygon.collect [t.a, t.b, t.c]).polygon, 0⟩
  return if c.polygon.size < 3 then { c with polygon := c.polygon.clear } else c

def fanTriangle (vertices : List Vertex) (i : Nat) : Checked Triangle :=
  return ⟨← item vertices 0, ← item vertices i, ← item vertices (i + 1)⟩

def fan (p : Polygon) : Checked (List Triangle) :=
  (List.range (p.size - 2)).reverse.mapM fun i => fanTriangle p.toList (i + 1)

theorem clipStep_eq (flags : ClipFlags) (c : Polygon.Collected) (side : ClipFlags × ClipSide) :
    clipStep flags c side = .ok (Polygon.clipStep flags c side) := by
  unfold clipStep Polygon.clipStep
  rw [cut_eq]
  split <;> rfl

theorem clip_eq (t : Triangle) (viewport : Viewport) (flags : ClipFlags) :
    clip t viewport flags = .ok (t.clip viewport flags) := by
  rw [clip, foldlM_eq (fun _ => True) (fun c _ side _ => clipStep_eq flags c side) (fun _ _ _ _ => trivial) trivial]
  rfl

theorem fan_eq (p : Polygon) : fan p = .ok (Polygon.fan p) := by
  refine mapM_eq fun i mem => ?_
  have lt : i < p.size - 2 := List.mem_range.1 (List.mem_reverse.1 mem)
  have length : p.toList.length = p.size := p.length_toList
  rw [fanTriangle, item_of_lt (by omega), ok_bind, item_of_lt (by omega), ok_bind, item_of_lt (by omega)]
  rfl

end Redraw.Checked

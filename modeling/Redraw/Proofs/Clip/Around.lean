import Mathlib.Data.List.Rotate
import Redraw.Proofs.Clip.Growth

/-!
# The way around a polygon

What is left of a polygon does not depend on the vertex from which it is listed, nor on the direction. A crossing is reckoned
from the lower end of its edge, so both directions find the same one (`ClipSide.crossing_comm`). A pass puts the crossings
between the ends of their edges and leaves out the outer vertices, and both go with a rotation and a reversal of the way
around (`ClipSide.cut_isRotated`, `ClipSide.cut_reverse`). What every pass respects, clipping respects as long as no polygon
on the way is too long (`Polygon.Respected.clip`). So a polygon that is listed in another way ends as the same polygon, listed
in another way (`Polygon.clip_around`).
-/

namespace Redraw

theorem isRotated_flatMap {α β : Type} {l l' : List α} (h : l.IsRotated l') (f : α → List β) :
    (l.flatMap f).IsRotated (l'.flatMap f) := by
  obtain ⟨n, rfl⟩ := h
  have parts : l.flatMap f = (l.take (n % l.length)).flatMap f ++ (l.drop (n % l.length)).flatMap f := by
    rw [← List.flatMap_append, List.take_append_drop]
  rw [List.rotate_eq_drop_append_take_mod, List.flatMap_append, parts]
  exact List.isRotated_append

namespace ClipSide

variable {s : ClipSide} {p q : Vertex} {vertices vertices' : List Vertex}

/-! ## From another vertex -/

/-- The edges of two pieces in a row start at the end of the second one. -/
theorem edges_append (left right : List Vertex) (y z : Vertex) :
    edges (left ++ [y] ++ (right ++ [z])) = path z (left ++ [y]) ++ path y (right ++ [z]) := by
  rw [← List.append_assoc, edges_concat, List.append_assoc, List.append_assoc, List.singleton_append, path_append]

theorem edges_append_comm (left right : List Vertex) : (edges (left ++ right)).IsRotated (edges (right ++ left)) := by
  rcases List.eq_nil_or_concat' left with rfl | ⟨left, y, rfl⟩
  · rw [List.nil_append, List.append_nil]
  rcases List.eq_nil_or_concat' right with rfl | ⟨right, z, rfl⟩
  · rw [List.nil_append, List.append_nil]
  rw [edges_append, edges_append]
  exact List.isRotated_append

theorem cut_isRotated (s : ClipSide) (h : vertices.IsRotated vertices') : (s.cut vertices).IsRotated (s.cut vertices') := by
  obtain ⟨n, rfl⟩ := h
  have around := edges_append_comm (vertices.take (n % vertices.length)) (vertices.drop (n % vertices.length))
  rw [List.take_append_drop, ← List.rotate_eq_drop_append_take_mod] at around
  exact isRotated_flatMap around _

/-! ## In the other direction -/

/-- An edge crosses a side at the same vertex, from whichever end it is reckoned. -/
theorem crossing_comm (apart : s.inside p ≠ s.inside q) : s.crossing p q = s.crossing q p := by
  obtain ⟨differ, -⟩ := straddle apart
  unfold crossing
  rcases lt_or_gt_of_ne differ with up | down
  · rw [if_pos up.le, if_neg up.not_ge]
  · rw [if_neg down.not_ge, if_pos down.le]

theorem crossing_mem_cut (edge : (p, q) ∈ edges vertices) (apart : s.inside p ≠ s.inside q) :
    s.crossing p q ∈ s.cut vertices := by
  have kept : s.crossing p q ∈ s.cutEdge p q := by
    rw [cutEdge_eq_filter, markEdge, if_neg apart]
    exact List.mem_filter.2 ⟨List.mem_cons_self, inside_crossing s p q⟩
  exact List.mem_flatMap.2 ⟨(p, q), edge, kept⟩

theorem reverse_markEdge (s : ClipSide) (p q : Vertex) : (p :: s.markEdge p q).reverse = q :: s.markEdge q p := by
  unfold markEdge
  by_cases same : s.inside p = s.inside q
  · rw [if_pos same, if_pos same.symm]
    rfl
  · rw [if_neg same, if_neg (Ne.symm same), crossing_comm same]
    rfl

theorem markPath_append (s : ClipSide) (p q : Vertex) (left right : List Vertex) :
    s.markPath p (left ++ q :: right) = s.markPath p (left ++ [q]) ++ s.markPath q right := by
  rw [markPath, path_append, List.flatMap_append]
  rfl

/-- A marked path that is walked backwards is the marked path backwards. -/
theorem reverse_markPath (s : ClipSide) (p z : Vertex) (vertices : List Vertex) :
    (p :: s.markPath p (vertices ++ [z])).reverse = z :: s.markPath z (vertices.reverse ++ [p]) := by
  have single (p q : Vertex) : s.markPath p [q] = s.markEdge p q := List.append_nil _
  induction vertices generalizing p with
  | nil => rw [List.reverse_nil, List.nil_append, List.nil_append, single, single, reverse_markEdge]
  | cons q vertices ih =>
    have first : s.markPath p (q :: (vertices ++ [z])) = s.markEdge p q ++ s.markPath q (vertices ++ [z]) := rfl
    have last : s.markPath z (vertices.reverse ++ q :: [p]) = s.markPath z (vertices.reverse ++ [q]) ++ s.markEdge q p := by
      rw [markPath_append, single]
    calc (p :: s.markPath p (q :: vertices ++ [z])).reverse
        = (s.markPath q (vertices ++ [z])).reverse ++ (p :: s.markEdge p q).reverse := by
          rw [List.cons_append, first, ← List.cons_append, List.reverse_append]
      _ = (q :: s.markPath q (vertices ++ [z])).reverse ++ s.markEdge q p := by
          rw [reverse_markEdge, List.reverse_cons, List.append_assoc, List.singleton_append]
      _ = z :: s.markPath z ((q :: vertices).reverse ++ [p]) := by
          rw [ih, List.reverse_cons, List.append_assoc, List.singleton_append, last, List.cons_append]

theorem cut_reverse (s : ClipSide) (vertices : List Vertex) :
    (s.cut vertices.reverse).IsRotated (s.cut vertices).reverse := by
  rcases List.eq_nil_or_concat' vertices with rfl | ⟨init, z, rfl⟩
  · exact .refl _
  -- The way around begins and ends at the last vertex, so backwards it visits the other ones in reverse order between the two.
  obtain ⟨marked, ends⟩ := s.markPath_concat z z init
  have back : s.markPath z (init.reverse ++ [z]) = marked.reverse ++ [z] := by
    have walked := s.reverse_markPath z z init
    rw [ends] at walked
    simpa using walked.symm
  have turned : (init ++ [z]).reverse.IsRotated (init.reverse ++ [z]) := by
    rw [List.reverse_append]
    exact List.isRotated_append
  refine (s.cut_isRotated turned).trans ?_
  rw [cut_eq_filter, cut_eq_filter, back, ends, ← List.filter_reverse, List.reverse_append, List.filter_append,
    List.filter_append]
  exact List.isRotated_append

end ClipSide

/-! ## All passes -/

namespace Polygon

/-- A relation between polygons of the same number of vertices that a pass along any side respects. -/
structure Respected (R : List Vertex → List Vertex → Prop) : Prop where
  nil : R [] []
  length {vertices vertices' : List Vertex} : R vertices vertices' → vertices.length = vertices'.length
  cut {vertices vertices' : List Vertex} (s : ClipSide) : R vertices vertices' → R (s.cut vertices) (s.cut vertices')

theorem respected_isRotated : Respected List.IsRotated where
  nil := .refl _
  length h := h.perm.length_eq
  cut s h := s.cut_isRotated h

theorem respected_reverse : Respected fun vertices vertices' => vertices'.IsRotated vertices.reverse where
  nil := .refl _
  length h := List.length_reverse.symm.trans h.perm.length_eq.symm
  cut s h := (s.cut_isRotated h).trans (s.cut_reverse _)

variable {R : List Vertex → List Vertex → Prop} {flags : ClipFlags} {c d : Collected}

theorem dropped_clipStep (flags : ClipFlags) (c : Collected) (side : ClipFlags × ClipSide) :
    (clipStep flags c side).dropped = c.dropped +
      if 3 ≤ c.polygon.size ∧ flags.contains side.1 then (side.2.cut c.polygon.toList).length - polygonCapacity else 0 := by
  unfold clipStep
  split
  · exact congrArg (c.dropped + ·) (dropped_collect _)
  · rfl

theorem dropped_le_foldl (flags : ClipFlags) (sides : List (ClipFlags × ClipSide)) (c : Collected) :
    c.dropped ≤ (sides.foldl (clipStep flags) c).dropped := by
  induction sides generalizing c with
  | nil => exact Nat.le_refl _
  | cons side sides ih =>
    have step := dropped_clipStep flags c side
    have rest := ih (clipStep flags c side)
    rw [List.foldl_cons]
    omega

theorem Respected.step (respected : Respected R) (related : R c.polygon.toList d.polygon.toList) (side : ClipFlags × ClipSide)
    (kept : (clipStep flags c side).dropped = 0) (kept' : d.dropped = 0) :
    R (clipStep flags c side).polygon.toList (clipStep flags d side).polygon.toList ∧
      (clipStep flags d side).dropped = 0 := by
  have size := respected.length related
  have cut := respected.cut side.2 related
  have length := respected.length cut
  rw [dropped_clipStep] at kept
  rw [dropped_clipStep, toList_clipStep, toList_clipStep, ← Bounded.length_toList, ← size, ← length]
  rw [← Bounded.length_toList] at kept
  by_cases cuts : 3 ≤ c.polygon.toList.length ∧ flags.contains side.1
  · rw [if_pos cuts] at kept ⊢
    rw [pass_of_named cuts (by omega), pass_of_named (size ▸ cuts) (by omega)]
    exact ⟨cut, by omega⟩
  · rw [if_neg cuts, pass, if_neg cuts, pass, if_neg (size ▸ cuts)]
    exact ⟨related, kept'⟩

theorem Respected.run (respected : Respected R) (sides : List (ClipFlags × ClipSide))
    (related : R c.polygon.toList d.polygon.toList) (kept : (sides.foldl (clipStep flags) c).dropped = 0)
    (kept' : d.dropped = 0) :
    R (sides.foldl (clipStep flags) c).polygon.toList (sides.foldl (clipStep flags) d).polygon.toList ∧
      (sides.foldl (clipStep flags) d).dropped = 0 := by
  -- That nothing is dropped in the end tells the same of every pass on the way, since the count only grows.
  induction sides generalizing c d with
  | nil => exact ⟨related, kept'⟩
  | cons side sides ih =>
    rw [List.foldl_cons] at kept
    have before : (clipStep flags c side).dropped = 0 :=
      Nat.eq_zero_of_le_zero (kept ▸ dropped_le_foldl flags sides (clipStep flags c side))
    obtain ⟨related, kept'⟩ := respected.step related side before kept'
    exact ih related kept kept'

theorem dropped_clip (p : Polygon) (viewport : Viewport) (flags : ClipFlags) :
    (p.clip viewport flags).dropped = (viewport.sides.foldl (clipStep flags) ⟨p, 0⟩).dropped := by
  unfold clip
  dsimp only
  split <;> rfl

/-- What every pass respects, clipping respects if it drops no vertices. -/
theorem Respected.clip (respected : Respected R) {p q : Polygon} {viewport : Viewport} (related : R p.toList q.toList)
    (room : (p.clip viewport flags).dropped = 0) :
    R (p.clip viewport flags).polygon.toList (q.clip viewport flags).polygon.toList ∧
      (q.clip viewport flags).dropped = 0 := by
  rw [dropped_clip] at room ⊢
  obtain ⟨passed, kept⟩ := respected.run (c := ⟨p, 0⟩) (d := ⟨q, 0⟩) viewport.sides related room rfl
  refine ⟨?_, kept⟩
  rw [toList_foldl_clipStep, toList_foldl_clipStep] at passed
  rw [toList_clip, toList_clip, ← respected.length passed]
  split
  · exact respected.nil
  · exact passed

/-- **Any way around.** Take a polygon that is clipped without dropping vertices. If another polygon lists the same vertices
from another one on, it ends as the same polygon, listed from another vertex on; if it lists them backwards, it ends as that
polygon backwards. For an edge crosses a side at the same vertex in both directions, so that two polygons on both sides of the
edge are cut there at the same vertex. -/
theorem clip_around (p : Polygon) (viewport : Viewport) (flags : ClipFlags) (room : (p.clip viewport flags).dropped = 0) :
    (∀ q : Polygon, p.toList.IsRotated q.toList →
      (p.clip viewport flags).polygon.toList.IsRotated (q.clip viewport flags).polygon.toList ∧
        (q.clip viewport flags).dropped = 0) ∧
      (∀ q : Polygon, q.toList = p.toList.reverse →
        (q.clip viewport flags).polygon.toList.IsRotated (p.clip viewport flags).polygon.toList.reverse ∧
          (q.clip viewport flags).dropped = 0) ∧
      ∀ (s : ClipSide) (a b : Vertex), s.inside a ≠ s.inside b → s.crossing a b = s.crossing b a ∧
        ∀ vertices vertices', (a, b) ∈ ClipSide.edges vertices → (b, a) ∈ ClipSide.edges vertices' →
          s.crossing a b ∈ s.cut vertices ∧ s.crossing a b ∈ s.cut vertices' := by
  refine ⟨fun q turned => respected_isRotated.clip turned room, fun q back => respected_reverse.clip (back ▸ .refl _) room, ?_⟩
  intro s a b apart
  have same := ClipSide.crossing_comm apart
  refine ⟨same, fun vertices vertices' edge back => ⟨ClipSide.crossing_mem_cut edge apart, ?_⟩⟩
  rw [same]
  exact ClipSide.crossing_mem_cut back apart.symm

/-- The triangle across all four sides, listed from its second vertex on, and backwards. -/
theorem clip_around_corner :
    let p := (collect [⟨-20, -30, 0, 0⟩, ⟨150, 20, 40, 0⟩, ⟨30, 110, 0, 40⟩]).polygon
    let turned := (collect [⟨150, 20, 40, 0⟩, ⟨30, 110, 0, 40⟩, ⟨-20, -30, 0, 0⟩]).polygon
    let back := (collect [⟨30, 110, 0, 40⟩, ⟨150, 20, 40, 0⟩, ⟨-20, -30, 0, 0⟩]).polygon
    let viewport : Viewport := ⟨0, 0, 100, 80⟩
    (p.clip viewport .all).dropped = 0 ∧ p.toList.IsRotated turned.toList ∧ back.toList = p.toList.reverse ∧
      (p.clip viewport .all).polygon.toList.IsRotated (turned.clip viewport .all).polygon.toList ∧
      (back.clip viewport .all).polygon.toList.IsRotated (p.clip viewport .all).polygon.toList.reverse := by
  intro p turned back viewport
  have start : Tame ⟨p, 0⟩ := Tame.triangle (t := ⟨⟨-20, -30, 0, 0⟩, ⟨150, 20, 40, 0⟩, ⟨30, 110, 0, 40⟩⟩) narrow_corner
  have room : (p.clip viewport .all).dropped = 0 := by
    rw [dropped_clip]
    exact (start.run .all viewport.sides (by decide)).1.kept
  have rotated : p.toList.IsRotated turned.toList := ⟨1, by decide⟩
  have reversed : back.toList = p.toList.reverse := by decide
  obtain ⟨forwards, backwards, -⟩ := clip_around p viewport .all room
  exact ⟨room, rotated, reversed, (forwards turned rotated).1, (backwards back reversed).1⟩

end Polygon

end Redraw

import Redraw.Proofs.Clip.Containment

/-!
# A clipped triangle stays small

A pass adds a vertex for every edge that enters the side it cuts along. Rounded crossings may dent a polygon, so that
after a few passes it need not be convex; what every pass keeps is that no side at all is entered more than once on
the way around (`entries_cut_le`). A triangle starts that way, so each pass adds at most one vertex (`clip_growth`).

To see that a pass adds no entries, it is split in two. First all crossings are put between the ends of their edges:
since they lie between the ends, no side is entered more often. Then the outer vertices are left out: what remains is
a sublist, and taking a vertex out of the way around adds no entries either (`entries_sublist`).
-/

namespace Redraw

namespace ClipSide

/-- The edge from `p` to `q` enters a side. -/
def enters (s : ClipSide) (p q : Vertex) : Bool := !s.inside p && s.inside q

def entries (s : ClipSide) (vertices : List Vertex) : Nat := (edges vertices).countP fun e => s.enters e.1 e.2

/-! ## Paths -/

def path (p : Vertex) : List Vertex → List (Vertex × Vertex)
  | [] => []
  | q :: vertices => (p, q) :: path q vertices

def pathEntries (s : ClipSide) (p : Vertex) (vertices : List Vertex) : Nat :=
  (path p vertices).countP fun e => s.enters e.1 e.2

variable {s : ClipSide}

@[simp]
theorem pathEntries_nil (p : Vertex) : s.pathEntries p [] = 0 := rfl

@[simp]
theorem pathEntries_cons (p q : Vertex) (vertices : List Vertex) :
    s.pathEntries p (q :: vertices) = (s.enters p q).toNat + s.pathEntries q vertices := by
  rw [pathEntries, path, List.countP_cons, Nat.add_comm, ← pathEntries]
  cases s.enters p q <;> rfl

theorem path_append (p q : Vertex) (left right : List Vertex) :
    path p (left ++ q :: right) = path p (left ++ [q]) ++ path q right := by
  induction left generalizing p with
  | nil => rfl
  | cons r left ih => simp [path, ih]

theorem pathEntries_append (p q : Vertex) (left right : List Vertex) :
    s.pathEntries p (left ++ q :: right) = s.pathEntries p (left ++ [q]) + s.pathEntries q right := by
  rw [pathEntries, path_append, List.countP_append, ← pathEntries, ← pathEntries]

theorem zip_eq_path (p z : Vertex) (vertices : List Vertex) :
    (p :: vertices).zip (vertices ++ [z]) = path p (vertices ++ [z]) := by
  induction vertices generalizing p with
  | nil => rfl
  | cons q vertices ih => simp [path, ih]

/-- The way around a polygon is the path from its last vertex. -/
theorem edges_concat (vertices : List Vertex) (z : Vertex) :
    edges (vertices ++ [z]) = path z (vertices ++ [z]) := by
  rw [edges, List.getLast?_concat, List.dropLast_concat, ← zip_eq_path]

theorem entries_concat (vertices : List Vertex) (z : Vertex) :
    s.entries (vertices ++ [z]) = s.pathEntries z (vertices ++ [z]) := by
  rw [entries, edges_concat, pathEntries]

/-- A detour enters a side at least as often as the straight way. -/
theorem enters_le (p q r : Vertex) : (s.enters p r).toNat ≤ (s.enters p q).toNat + (s.enters q r).toNat := by
  unfold enters
  cases s.inside p <;> cases s.inside q <;> cases s.inside r <;> decide

theorem pathEntries_le_cons (p q : Vertex) (vertices : List Vertex) :
    s.pathEntries p vertices ≤ s.pathEntries p (q :: vertices) := by
  cases vertices with
  | nil => simp
  | cons r vertices =>
    have := s.enters_le p q r
    simp only [pathEntries_cons]
    omega

theorem pathEntries_sublist {short long : List Vertex} (h : short.Sublist long) (p z : Vertex) :
    s.pathEntries p (short ++ [z]) ≤ s.pathEntries p (long ++ [z]) := by
  induction h generalizing p with
  | slnil => exact Nat.le_refl _
  | cons q _ ih =>
    refine Nat.le_trans (pathEntries_le_cons p q _) ?_
    rw [List.cons_append, pathEntries_cons, pathEntries_cons]
    exact Nat.add_le_add_left (ih q) _
  | cons_cons q _ ih =>
    rw [List.cons_append, List.cons_append, pathEntries_cons, pathEntries_cons]
    exact Nat.add_le_add_left (ih q) _

/-- Leaving vertices out adds no entries. -/
theorem entries_sublist {short long : List Vertex} (h : short.Sublist long) : s.entries short ≤ s.entries long := by
  rcases List.eq_nil_or_concat' short with rfl | ⟨init, z, rfl⟩
  · exact Nat.zero_le _
  -- The way around the long polygon starts at the vertex that is last in the short one.
  obtain ⟨first, second, rfl, before, at_z⟩ := List.append_sublist_iff.1 h
  obtain ⟨left, right, rfl⟩ := List.append_of_mem (List.singleton_sublist.1 at_z)
  rw [entries_concat]
  have kept : init.Sublist (first ++ left) := before.trans (List.sublist_append_left _ _)
  rcases List.eq_nil_or_concat' right with rfl | ⟨right, w, rfl⟩
  · rw [← List.append_assoc, entries_concat]
    exact pathEntries_sublist kept z z
  · have around : first ++ (left ++ z :: (right ++ [w])) = (first ++ left ++ z :: right) ++ [w] := by simp
    have split : s.pathEntries w (first ++ left ++ z :: right ++ [w]) =
        s.pathEntries w (first ++ left ++ [z]) + s.pathEntries z (right ++ [w]) := by
      rw [← pathEntries_append]
      simp
    calc s.pathEntries z (init ++ [z]) ≤ s.pathEntries z (right ++ [w] ++ (first ++ left) ++ [z]) :=
          pathEntries_sublist (kept.trans (List.sublist_append_right _ _)) z z
      _ = s.pathEntries z (right ++ [w]) + s.pathEntries w (first ++ left ++ [z]) := by
          rw [← pathEntries_append]
          simp
      _ = s.entries (first ++ (left ++ z :: (right ++ [w]))) := by
          rw [around, entries_concat, split, Nat.add_comm]

/-! ## Putting crossings in -/

/-- The end of an edge, with the crossing before it if the side separates the two ends. -/
def markEdge (s : ClipSide) (p q : Vertex) : List Vertex :=
  if s.inside p = s.inside q then [q] else [s.crossing p q, q]

def markPath (s : ClipSide) (p : Vertex) (vertices : List Vertex) : List Vertex :=
  (path p vertices).flatMap fun e => s.markEdge e.1 e.2

/-- A pass keeps what is inside of an edge that is marked. -/
theorem cutEdge_eq_filter (s : ClipSide) (p q : Vertex) : s.cutEdge p q = (s.markEdge p q).filter s.inside := by
  unfold cutEdge markEdge
  cases inP : s.inside p <;> cases inQ : s.inside q <;> simp [inQ, inside_crossing]

theorem cut_eq_filter (s : ClipSide) (vertices : List Vertex) (z : Vertex) :
    s.cut (vertices ++ [z]) = (s.markPath z (vertices ++ [z])).filter s.inside := by
  rw [cut, edges_concat, markPath, List.filter_flatMap]
  simp only [cutEdge_eq_filter]

theorem markPath_concat (s : ClipSide) (p z : Vertex) (vertices : List Vertex) :
    ∃ init, s.markPath p (vertices ++ [z]) = init ++ [z] := by
  induction vertices generalizing p with
  | nil =>
    simp only [markPath, markEdge, List.nil_append, path, List.flatMap_cons, List.flatMap_nil, List.append_nil]
    split
    · exact ⟨[], rfl⟩
    · exact ⟨[_], rfl⟩
  | cons q vertices ih =>
    obtain ⟨init, h⟩ := ih q
    refine ⟨s.markEdge p q ++ init, ?_⟩
    rw [List.append_assoc, ← h]
    rfl

/-- A crossing between the ends of an edge does not enter a side where the edge does not. -/
theorem enters_crossing {p q : Vertex} (apart : s.inside p ≠ s.inside q) (near : Near p q) (t : ClipSide) :
    (t.enters p (s.crossing p q)).toNat + (t.enters (s.crossing p q) q).toNat ≤ (t.enters p q).toNat := by
  have among := inside_of_between (crossing_between apart near) t
  unfold enters
  rcases among with same | same <;> rw [same] <;> cases t.inside p <;> cases t.inside q <;> decide

theorem pathEntries_markPath_le {p : Vertex} {vertices : List Vertex} (narrow : Narrow (p :: vertices))
    (t : ClipSide) : t.pathEntries p (s.markPath p vertices) ≤ t.pathEntries p vertices := by
  induction vertices generalizing p with
  | nil => exact Nat.le_refl _
  | cons q vertices ih =>
    have rest := ih (p := q) fun v hv w hw => narrow v (List.mem_cons_of_mem p hv) w (List.mem_cons_of_mem p hw)
    have marked : s.markPath p (q :: vertices) = s.markEdge p q ++ s.markPath q vertices := rfl
    rw [marked, markEdge, pathEntries_cons]
    split
    · rw [List.singleton_append, pathEntries_cons]
      omega
    · rename_i apart
      have step := enters_crossing apart (narrow p List.mem_cons_self q (List.mem_cons_of_mem p List.mem_cons_self)) t
      rw [List.cons_append, List.singleton_append, pathEntries_cons, pathEntries_cons]
      omega

/-- A pass along one side adds no entries of any side. -/
theorem entries_cut_le {vertices : List Vertex} (narrow : Narrow vertices) (t : ClipSide) :
    t.entries (s.cut vertices) ≤ t.entries vertices := by
  rcases List.eq_nil_or_concat' vertices with rfl | ⟨init, z, rfl⟩
  · exact Nat.le_refl _
  have around : Narrow (z :: (init ++ [z])) := by
    have member : ∀ v ∈ z :: (init ++ [z]), v ∈ init ++ [z] := by simp
    exact fun v hv w hw => narrow v (member v hv) w (member w hw)
  obtain ⟨marked, h⟩ := s.markPath_concat z z init
  calc t.entries (s.cut (init ++ [z])) ≤ t.entries (s.markPath z (init ++ [z])) := by
        rw [cut_eq_filter]
        exact entries_sublist List.filter_sublist
    _ = t.pathEntries z (s.markPath z (init ++ [z])) := by rw [h, entries_concat]
    _ ≤ t.pathEntries z (init ++ [z]) := pathEntries_markPath_le around t
    _ = t.entries (init ++ [z]) := (entries_concat init z).symm

/-! ## Counting vertices -/

theorem length_cutEdge_le (s : ClipSide) (p q : Vertex) :
    (s.cutEdge p q).length ≤ 1 + (s.enters p q).toNat := by
  unfold cutEdge enters
  cases s.inside p <;> cases s.inside q <;> simp

theorem length_flatMap_cutEdge_le (s : ClipSide) (es : List (Vertex × Vertex)) :
    (es.flatMap fun e => s.cutEdge e.1 e.2).length ≤ es.length + es.countP fun e => s.enters e.1 e.2 := by
  induction es with
  | nil => simp
  | cons e es ih =>
    have step := s.length_cutEdge_le e.1 e.2
    have count : (if s.enters e.1 e.2 = true then 1 else 0) = (s.enters e.1 e.2).toNat := by
      cases s.enters e.1 e.2 <;> rfl
    rw [List.flatMap_cons, List.length_append, List.length_cons, List.countP_cons, count]
    omega

/-- A pass adds at most as many vertices as there are edges that enter the side. -/
theorem length_cut_le (s : ClipSide) (vertices : List Vertex) :
    (s.cut vertices).length ≤ vertices.length + s.entries vertices := by
  have size : (edges vertices).length = vertices.length := by
    rw [← List.length_map, map_snd_edges]
  rw [← size]
  exact s.length_flatMap_cutEdge_le _

theorem entries_triangle_le (s : ClipSide) (a b c : Vertex) : s.entries [a, b, c] ≤ 1 := by
  have around : edges [a, b, c] = [(c, a), (a, b), (b, c)] := rfl
  rw [entries, around]
  unfold enters
  cases inA : s.inside a <;> cases inB : s.inside b <;> cases inC : s.inside c <;> simp [inA, inB, inC]

end ClipSide

/-! ## Clipping a triangle -/

namespace Polygon

theorem dropped_foldl_add (vertices : List Vertex) (c : Collected) :
    (vertices.foldl Collected.add c).dropped = c.dropped + (c.polygon.size + vertices.length - polygonCapacity) := by
  induction vertices generalizing c with
  | nil =>
    have room := c.polygon.size_le
    simp
    omega
  | cons p vertices ih =>
    have room := c.polygon.size_le
    rw [List.foldl_cons, ih, List.length_cons]
    cases pushed : c.polygon.push? p with
    | none =>
      have full := (Bounded.push?_eq_none_iff _ _).1 pushed
      simp only [Collected.add, pushed]
      omega
    | some polygon =>
      have view := congrArg List.length (Bounded.toList_push? pushed)
      simp only [Bounded.length_toList, List.length_append, List.length_singleton] at view
      simp only [Collected.add, pushed]
      omega

theorem dropped_collect (vertices : List Vertex) :
    (collect vertices).dropped = vertices.length - polygonCapacity := by
  rw [collect, dropped_foldl_add]
  simp [Bounded.empty]

/-- What holds of a triangle and after every pass along a side. -/
structure Tame (c : Collected) : Prop where
  entered_once : ∀ s : ClipSide, s.entries c.polygon.toList ≤ 1
  narrow : Narrow c.polygon.toList
  kept : c.dropped = 0

variable {flags : ClipFlags} {c : Collected}

theorem Tame.step (tame : Tame c) (flags : ClipFlags) (room : c.polygon.size < polygonCapacity)
    (side : ClipFlags × ClipSide) :
    Tame (clipStep flags c side) ∧
      (clipStep flags c side).polygon.size ≤ c.polygon.size + (flags.contains side.1).toNat := by
  by_cases cuts : 3 ≤ c.polygon.size ∧ flags.contains side.1 = true
  · have grown := side.2.length_cut_le c.polygon.toList
    have once := tame.entered_once side.2
    rw [Bounded.length_toList] at grown
    have fits : (side.2.cut c.polygon.toList).length ≤ polygonCapacity := by omega
    have view : (clipStep flags c side).polygon.toList = side.2.cut c.polygon.toList := by
      rw [toList_clipStep, pass_of_named (by simpa using cuts) fits]
    have size := congrArg List.length view
    rw [Bounded.length_toList] at size
    refine ⟨⟨fun s => ?_, ?_, ?_⟩, ?_⟩
    · rw [view]
      exact Nat.le_trans (ClipSide.entries_cut_le tame.narrow s) (tame.entered_once s)
    · rw [view]
      exact tame.narrow.of_within (ClipSide.within_cut tame.narrow)
    · rw [clipStep, if_pos cuts]
      simp only [tame.kept, dropped_collect]
      omega
    · rw [cuts.2, Bool.toNat_true]
      omega
  · have same : clipStep flags c side = c := if_neg cuts
    rw [same]
    exact ⟨tame, Nat.le_add_right _ _⟩

theorem Tame.run (tame : Tame c) (flags : ClipFlags) (sides : List (ClipFlags × ClipSide))
    (room : c.polygon.size + sides.length ≤ polygonCapacity) :
    Tame (sides.foldl (clipStep flags) c) ∧
      (sides.foldl (clipStep flags) c).polygon.size ≤
        c.polygon.size + sides.countP fun side => flags.contains side.1 := by
  induction sides generalizing c with
  | nil => exact ⟨tame, Nat.le_refl _⟩
  | cons side sides ih =>
    rw [List.length_cons] at room
    obtain ⟨tame', grown⟩ := tame.step flags (by omega) side
    have one := Bool.toNat_le (flags.contains side.1)
    have count : (if flags.contains side.1 = true then 1 else 0) = (flags.contains side.1).toNat := by
      cases flags.contains side.1 <;> rfl
    obtain ⟨tame'', size⟩ := ih tame' (by omega)
    refine ⟨tame'', ?_⟩
    rw [List.foldl_cons, List.countP_cons, count]
    omega

theorem Tame.triangle {t : Triangle} (narrow : Narrow [t.a, t.b, t.c]) :
    Tame ⟨(collect [t.a, t.b, t.c]).polygon, 0⟩ := by
  have view : (collect [t.a, t.b, t.c]).polygon.toList = [t.a, t.b, t.c] := toList_collect _
  exact ⟨fun s => view ▸ s.entries_triangle_le t.a t.b t.c, view ▸ narrow, rfl⟩

/-- **Growth.** Every pass over a triangle adds at most one vertex, so that it ends with at most three and one for each
side that is named, seven at the most, and no vertex is ever dropped. -/
theorem clip_growth (t : Triangle) (viewport : Viewport) (flags : ClipFlags) (narrow : Narrow [t.a, t.b, t.c]) :
    (collect [t.a, t.b, t.c]).dropped = 0 ∧
      (∀ done side rest, viewport.sides = done ++ side :: rest →
        let c := done.foldl (clipStep flags) ⟨(collect [t.a, t.b, t.c]).polygon, 0⟩
        (clipStep flags c side).polygon.size ≤ c.polygon.size + 1 ∧ (clipStep flags c side).dropped = 0) ∧
      (t.clip viewport flags).polygon.size ≤ 3 + viewport.sides.countP (fun side => flags.contains side.1) ∧
      (t.clip viewport flags).polygon.size ≤ 7 ∧ (t.clip viewport flags).dropped = 0 := by
  have start := Tame.triangle narrow
  have three : (collect [t.a, t.b, t.c]).polygon.size = 3 := by
    rw [← Bounded.length_toList, toList_collect]
    rfl
  have four : viewport.sides.length = 4 := rfl
  obtain ⟨tame, size⟩ := start.run flags viewport.sides (by simp only [three, four]; decide)
  have named : viewport.sides.countP (fun side => flags.contains side.1) ≤ 4 := List.countP_le_length
  have clipped : (t.clip viewport flags).polygon.size ≤
        (viewport.sides.foldl (clipStep flags) ⟨(collect [t.a, t.b, t.c]).polygon, 0⟩).polygon.size ∧
      (t.clip viewport flags).dropped =
        (viewport.sides.foldl (clipStep flags) ⟨(collect [t.a, t.b, t.c]).polygon, 0⟩).dropped := by
    simp only [Triangle.clip, clip]
    split
    · exact ⟨Nat.zero_le _, rfl⟩
    · exact ⟨Nat.le_refl _, rfl⟩
  simp only [three] at size
  refine ⟨by rw [dropped_collect]; rfl, ?_, by omega, by omega, clipped.2.trans tame.kept⟩
  intro done side rest split
  have total := congrArg List.length split
  rw [four, List.length_append, List.length_cons] at total
  obtain ⟨before, few⟩ := start.run flags done (by simp only [three, polygonCapacity]; omega)
  have counted : done.countP (fun side => flags.contains side.1) ≤ done.length := List.countP_le_length
  simp only [three] at few
  obtain ⟨after, grown⟩ := before.step flags (by simp only [polygonCapacity]; omega) side
  have one := Bool.toNat_le (flags.contains side.1)
  exact ⟨by omega, after.kept⟩

open ClipSide in
/-- The triangle across all four sides ends with seven vertices. -/
theorem clip_growth_corner :
    let t : Triangle := ⟨⟨-20, -30, 0, 0⟩, ⟨150, 20, 40, 0⟩, ⟨30, 110, 0, 40⟩⟩
    let viewport : Viewport := ⟨0, 0, 100, 80⟩
    Narrow [t.a, t.b, t.c] ∧ (t.clip viewport .all).polygon.toList.length = 7 ∧
      (t.clip viewport .all).polygon.size ≤ 7 ∧ (t.clip viewport .all).dropped = 0 := by
  intro t viewport
  have cut_right : (ClipSide.right 100).cut [⟨0, 26, 0, 16⟩, ⟨0, -24, 5, 0⟩, ⟨150, 20, 40, 0⟩, ⟨30, 110, 0, 40⟩] =
      [⟨0, 26, 0, 16⟩, ⟨0, -24, 5, 0⟩, ⟨100, 5, 28, 0⟩, ⟨100, 58, 23, 17⟩, ⟨30, 110, 0, 40⟩] := by
    simp [cut, edges, cutEdge, inside, crossing, across, crossingUp, coordinate, ratio, reciprocal_of_pos, snap, lerp,
      wrap32]
  have cut_top : (ClipSide.top 0).cut
        [⟨0, 26, 0, 16⟩, ⟨0, -24, 5, 0⟩, ⟨100, 5, 28, 0⟩, ⟨100, 58, 23, 17⟩, ⟨30, 110, 0, 40⟩] =
      [⟨0, 26, 0, 16⟩, ⟨0, 0, 3, 8⟩, ⟨83, 0, 24, 0⟩, ⟨100, 5, 28, 0⟩, ⟨100, 58, 23, 17⟩, ⟨30, 110, 0, 40⟩] := by
    simp [cut, edges, cutEdge, inside, crossing, across, crossingUp, coordinate, ratio, reciprocal_of_pos, snap, lerp,
      wrap32]
  have cut_bottom : (ClipSide.bottom 80).cut
        [⟨0, 26, 0, 16⟩, ⟨0, 0, 3, 8⟩, ⟨83, 0, 24, 0⟩, ⟨100, 5, 28, 0⟩, ⟨100, 58, 23, 17⟩, ⟨30, 110, 0, 40⟩] =
      [⟨19, 80, 0, 31⟩, ⟨0, 26, 0, 16⟩, ⟨0, 0, 3, 8⟩, ⟨83, 0, 24, 0⟩, ⟨100, 5, 28, 0⟩, ⟨100, 58, 23, 17⟩,
        ⟨70, 80, 13, 27⟩] := by
    simp [cut, edges, cutEdge, inside, crossing, across, crossingUp, coordinate, ratio, reciprocal_of_pos, snap, lerp,
      wrap32]
  have left : pass .all _ (.left, .left 0) = _ :=
    (pass_of_named (by decide) (by rw [cut_left_corner]; decide)).trans cut_left_corner
  have right : pass .all _ (.right, .right 100) = _ :=
    (pass_of_named (by decide) (by rw [cut_right]; decide)).trans cut_right
  have top : pass .all _ (.top, .top 0) = _ := (pass_of_named (by decide) (by rw [cut_top]; decide)).trans cut_top
  have bottom : pass .all _ (.bottom, .bottom 80) = _ :=
    (pass_of_named (by decide) (by rw [cut_bottom]; decide)).trans cut_bottom
  have passes : viewport.sides.foldl (pass .all) [⟨-20, -30, 0, 0⟩, ⟨150, 20, 40, 0⟩, ⟨30, 110, 0, 40⟩] =
      [⟨19, 80, 0, 31⟩, ⟨0, 26, 0, 16⟩, ⟨0, 0, 3, 8⟩, ⟨83, 0, 24, 0⟩, ⟨100, 5, 28, 0⟩, ⟨100, 58, 23, 17⟩,
        ⟨70, 80, 13, 27⟩] := by
    rw [Viewport.sides, List.foldl_cons, List.foldl_cons, List.foldl_cons, List.foldl_cons, List.foldl_nil, left, right,
      top, bottom]
  have view : (collect [t.a, t.b, t.c]).polygon.toList = [⟨-20, -30, 0, 0⟩, ⟨150, 20, 40, 0⟩, ⟨30, 110, 0, 40⟩] :=
    toList_collect _
  have clipped : (t.clip viewport .all).polygon.toList = _ :=
    (toList_clip _ viewport .all).trans (by rw [view, passes, if_neg (by decide)])
  obtain ⟨-, -, -, few, kept⟩ := clip_growth t viewport .all narrow_corner
  exact ⟨narrow_corner, by rw [clipped]; rfl, few, kept⟩

end Polygon

end Redraw

import Mathlib.Data.List.Infix
import Redraw.Proofs.Clip.Crossing

/-!
# Clipped polygons stay inside

Cutting along the sides of a viewport one after the other never pushes a vertex out again: a pass makes only vertices
between those of the polygon it cuts (`within_cut`), and what lies between inner vertices is inside. So a clipped
polygon is inside every side that was named and between the extremes of the polygon it was clipped from, and clipping
it once more changes nothing (`clip_containment`). A full polygon may drop vertices; the statements hold all the same.
-/

namespace Redraw

/-! ## Between extremes -/

/-- Every coordinate of `p` lies between the least and the greatest of the vertices. -/
def Within (vertices : List Vertex) (p : Vertex) : Prop :=
  ∀ a, (∃ l ∈ vertices, l.along a ≤ p.along a) ∧ ∃ h ∈ vertices, p.along a ≤ h.along a

theorem Within.of_mem {vertices : List Vertex} {p : Vertex} (h : p ∈ vertices) : Within vertices p :=
  fun _ => ⟨⟨p, h, Int.le_refl _⟩, p, h, Int.le_refl _⟩

theorem Within.of_between {vertices : List Vertex} {p q z : Vertex} (hp : p ∈ vertices) (hq : q ∈ vertices)
    (h : Between p q z) : Within vertices z := by
  intro a
  obtain ⟨lo, hi⟩ := h a
  rcases le_total (p.along a) (q.along a) with le | le
  · exact ⟨⟨p, hp, by omega⟩, q, hq, by omega⟩
  · exact ⟨⟨q, hq, by omega⟩, p, hp, by omega⟩

theorem Within.trans {inner outer : List Vertex} {p : Vertex} (h : Within inner p)
    (all : ∀ q ∈ inner, Within outer q) : Within outer p := by
  intro a
  obtain ⟨⟨l, hl, lo⟩, r, hr, hi⟩ := h a
  obtain ⟨⟨l', hl', lo'⟩, -⟩ := all l hl a
  obtain ⟨-, r', hr', hi'⟩ := all r hr a
  exact ⟨⟨l', hl', by omega⟩, r', hr', by omega⟩

theorem Narrow.of_within {inner outer : List Vertex} (narrow : Narrow outer)
    (all : ∀ q ∈ inner, Within outer q) : Narrow inner := by
  intro p hp q hq a
  obtain ⟨⟨l, hl, lo⟩, r, hr, hi⟩ := all p hp a
  obtain ⟨⟨l', hl', lo'⟩, r', hr', hi'⟩ := all q hq a
  have := narrow r hr l' hl' a
  have := narrow r' hr' l hl a
  omega

theorem Within.inside {vertices : List Vertex} {p : Vertex} (h : Within vertices p) {s : ClipSide}
    (all : ∀ q ∈ vertices, s.inside q = true) : s.inside p = true := by
  obtain ⟨⟨l, hl, lo⟩, r, hr, hi⟩ := h .x
  obtain ⟨⟨t, ht, up⟩, b, hb, down⟩ := h .y
  have hl := all l hl
  have hr := all r hr
  have ht := all t ht
  have hb := all b hb
  cases s <;> simp only [ClipSide.inside, Vertex.along, decide_eq_true_eq] at * <;> omega

theorem Within.outside {vertices : List Vertex} {p : Vertex} (h : Within vertices p) {s : ClipSide}
    (all : ∀ q ∈ vertices, s.inside q = false) : s.inside p = false := by
  obtain ⟨⟨l, hl, lo⟩, r, hr, hi⟩ := h .x
  obtain ⟨⟨t, ht, up⟩, b, hb, down⟩ := h .y
  have hl := all l hl
  have hr := all r hr
  have ht := all t ht
  have hb := all b hb
  cases s <;> simp only [ClipSide.inside, Vertex.along, decide_eq_false_iff_not] at * <;> omega

/-! ## One pass -/

namespace ClipSide

theorem mem_of_mem_edges {vertices : List Vertex} {p q : Vertex} (h : (p, q) ∈ edges vertices) :
    p ∈ vertices ∧ q ∈ vertices := by
  unfold edges at h
  split at h
  · rename_i last found
    obtain ⟨hp, hq⟩ := List.of_mem_zip h
    refine ⟨?_, hq⟩
    rcases List.mem_cons.1 hp with rfl | hp
    · exact List.mem_of_getLast? found
    · exact List.mem_of_mem_dropLast hp
  · cases h

/-- A pass keeps inner vertices and adds crossings. -/
theorem mem_cut {s : ClipSide} {vertices : List Vertex} {z : Vertex} (h : z ∈ s.cut vertices) :
    (z ∈ vertices ∧ s.inside z = true) ∨
      ∃ p ∈ vertices, ∃ q ∈ vertices, s.inside p ≠ s.inside q ∧ z = s.crossing p q := by
  obtain ⟨⟨p, q⟩, edge, hz⟩ := List.mem_flatMap.1 h
  obtain ⟨hp, hq⟩ := mem_of_mem_edges edge
  cases inP : s.inside p <;> cases inQ : s.inside q <;> simp only [cutEdge, inP, inQ] at hz
  · cases hz
  · rcases List.mem_cons.1 hz with rfl | hz
    · exact .inr ⟨p, hp, q, hq, by simp [inP, inQ], rfl⟩
    · cases List.mem_singleton.1 hz
      exact .inl ⟨hq, inQ⟩
  · exact .inr ⟨p, hp, q, hq, by simp [inP, inQ], List.mem_singleton.1 hz⟩
  · cases List.mem_singleton.1 hz
    exact .inl ⟨hq, inQ⟩

theorem within_cut {s : ClipSide} {vertices : List Vertex} (narrow : Narrow vertices) :
    ∀ z ∈ s.cut vertices, Within vertices z := by
  intro z hz
  rcases mem_cut hz with ⟨old, -⟩ | ⟨p, hp, q, hq, apart, rfl⟩
  · exact .of_mem old
  · exact .of_between hp hq (crossing_between apart (narrow p hp q hq))

theorem inside_cut {s : ClipSide} {vertices : List Vertex} : ∀ z ∈ s.cut vertices, s.inside z = true := by
  intro z hz
  rcases mem_cut hz with ⟨-, inZ⟩ | ⟨p, -, q, -, -, rfl⟩
  · exact inZ
  · exact inside_crossing s p q

theorem map_snd_edges (vertices : List Vertex) : (edges vertices).map Prod.snd = vertices := by
  unfold edges
  split
  · rename_i last found
    have := List.length_pos_of_mem (List.mem_of_getLast? found)
    exact List.map_snd_zip (by simp; omega)
  · rename_i none_last
    exact (List.getLast?_eq_none_iff.1 none_last).symm

theorem cut_of_inside {s : ClipSide} {vertices : List Vertex} (all : ∀ p ∈ vertices, s.inside p = true) :
    s.cut vertices = vertices := by
  have single : ∀ e ∈ edges vertices, s.cutEdge e.1 e.2 = [e.2] := by
    intro ⟨p, q⟩ edge
    obtain ⟨hp, hq⟩ := mem_of_mem_edges edge
    simp [cutEdge, all p hp, all q hq]
  calc s.cut vertices = (edges vertices).flatMap fun e => [e.2] := List.flatMap_congr single
    _ = (edges vertices).map Prod.snd := List.map_eq_flatMap.symm
    _ = vertices := map_snd_edges vertices

end ClipSide

/-! ## Successive passes -/

namespace Polygon

theorem toList_add (c : Collected) (p : Vertex) :
    (c.add p).polygon.toList = (c.polygon.toList ++ [p]).take polygonCapacity := by
  have room := c.polygon.size_le
  cases pushed : c.polygon.push? p with
  | none =>
    have full := (Bounded.push?_eq_none_iff _ _).1 pushed
    simp only [Collected.add, pushed]
    rw [List.take_append_of_le_length (by simp [full]), List.take_of_length_le (by simp [full])]
  | some polygon =>
    have view := Bounded.toList_push? pushed
    have fits := polygon.size_le
    simp only [Collected.add, pushed]
    rw [← view, List.take_of_length_le (by simpa using fits)]

theorem toList_foldl_add (vertices : List Vertex) (c : Collected) :
    (vertices.foldl Collected.add c).polygon.toList = (c.polygon.toList ++ vertices).take polygonCapacity := by
  induction vertices generalizing c with
  | nil =>
    have room := c.polygon.size_le
    rw [List.foldl_nil, List.append_nil, List.take_of_length_le (by simpa using room)]
  | cons p vertices ih =>
    have overflow : polygonCapacity - min polygonCapacity (c.polygon.toList ++ [p]).length =
        polygonCapacity - (c.polygon.toList ++ [p]).length := by omega
    rw [List.foldl_cons, ih, toList_add, List.take_append, List.take_take, Nat.min_self, List.length_take, overflow,
      ← List.take_append, List.append_assoc, List.singleton_append]

/-- A polygon takes as many vertices as it has room for. -/
theorem toList_collect (vertices : List Vertex) :
    (collect vertices).polygon.toList = vertices.take polygonCapacity := by
  rw [collect, toList_foldl_add, Bounded.toList_empty, List.nil_append]

/-- A pass along a side, on lists of vertices. -/
def pass (flags : ClipFlags) (vertices : List Vertex) (side : ClipFlags × ClipSide) : List Vertex :=
  if 3 ≤ vertices.length ∧ flags.contains side.1 then (side.2.cut vertices).take polygonCapacity else vertices

theorem toList_clipStep (flags : ClipFlags) (c : Collected) (side : ClipFlags × ClipSide) :
    (clipStep flags c side).polygon.toList = pass flags c.polygon.toList side := by
  rw [clipStep, pass, Bounded.length_toList]
  split
  · exact toList_collect _
  · rfl

theorem toList_foldl_clipStep (flags : ClipFlags) (sides : List (ClipFlags × ClipSide)) (c : Collected) :
    (sides.foldl (clipStep flags) c).polygon.toList = sides.foldl (pass flags) c.polygon.toList := by
  induction sides generalizing c with
  | nil => rfl
  | cons side sides ih => rw [List.foldl_cons, List.foldl_cons, ih, toList_clipStep]

variable {flags : ClipFlags} {vertices : List Vertex}

theorem pass_of_unnamed {side : ClipFlags × ClipSide} (unnamed : flags.contains side.1 = false) :
    pass flags vertices side = vertices := by
  rw [pass, if_neg]
  rintro ⟨-, named⟩
  rw [unnamed] at named
  cases named

theorem pass_of_named {side : ClipFlags × ClipSide} (cuts : 3 ≤ vertices.length ∧ flags.contains side.1 = true)
    (room : (side.2.cut vertices).length ≤ polygonCapacity) : pass flags vertices side = side.2.cut vertices := by
  rw [pass, if_pos cuts, List.take_of_length_le room]

/-- Without an area left, the passes that remain do nothing. -/
theorem foldl_pass_of_lt (small : vertices.length < 3) (sides : List (ClipFlags × ClipSide)) :
    sides.foldl (pass flags) vertices = vertices := by
  induction sides with
  | nil => rfl
  | cons side sides ih => rw [List.foldl_cons, pass, if_neg (by omega), ih]

theorem within_pass (flags : ClipFlags) (narrow : Narrow vertices) (side : ClipFlags × ClipSide) :
    ∀ p ∈ pass flags vertices side, Within vertices p := by
  intro p hp
  unfold pass at hp
  split at hp
  · exact ClipSide.within_cut narrow p (List.mem_of_mem_take hp)
  · exact .of_mem hp

theorem within_foldl_pass (flags : ClipFlags) (sides : List (ClipFlags × ClipSide)) (narrow : Narrow vertices) :
    ∀ p ∈ sides.foldl (pass flags) vertices, Within vertices p := by
  induction sides generalizing vertices with
  | nil => exact fun p hp => .of_mem hp
  | cons side sides ih =>
    intro p hp
    have step := within_pass flags narrow side
    exact (ih (narrow.of_within step) p hp).trans step

/-- After all passes a polygon with an area is inside every side that was named: the pass along the side brought it
inside, and the later passes made only vertices between the ones that were there. -/
theorem inside_foldl_pass (flags : ClipFlags) (sides : List (ClipFlags × ClipSide)) (narrow : Narrow vertices)
    (area : 3 ≤ (sides.foldl (pass flags) vertices).length) :
    ∀ side ∈ sides, flags.contains side.1 = true →
      ∀ p ∈ sides.foldl (pass flags) vertices, side.2.inside p = true := by
  induction sides generalizing vertices with
  | nil => simp
  | cons first sides ih =>
    have narrow' := narrow.of_within (within_pass flags narrow first)
    have area' : 3 ≤ vertices.length := by
      by_contra small
      rw [foldl_pass_of_lt (by omega)] at area
      exact small area
    intro side hside named p hp
    rcases List.mem_cons.1 hside with rfl | later
    · refine (within_foldl_pass flags sides narrow' p hp).inside fun q hq => ?_
      rw [pass, if_pos ⟨area', named⟩] at hq
      exact ClipSide.inside_cut q (List.mem_of_mem_take hq)
    · exact ih narrow' area side later named p hp

theorem foldl_pass_of_inside (sides : List (ClipFlags × ClipSide)) (room : vertices.length ≤ polygonCapacity)
    (all : ∀ side ∈ sides, flags.contains side.1 = true → ∀ p ∈ vertices, side.2.inside p = true) :
    sides.foldl (pass flags) vertices = vertices := by
  induction sides with
  | nil => rfl
  | cons side sides ih =>
    have step : pass flags vertices side = vertices := by
      cases named : flags.contains side.1 with
      | true =>
        have same := ClipSide.cut_of_inside (all side List.mem_cons_self named)
        unfold pass
        rw [same, List.take_of_length_le room, ite_self]
      | false => exact pass_of_unnamed named
    rw [List.foldl_cons, step, ih fun side hside => all side (List.mem_cons_of_mem _ hside)]

/-! ## Clipping -/

theorem toList_clip (p : Polygon) (viewport : Viewport) (flags : ClipFlags) :
    (p.clip viewport flags).polygon.toList =
      if (viewport.sides.foldl (pass flags) p.toList).length < 3 then []
      else viewport.sides.foldl (pass flags) p.toList := by
  have view := toList_foldl_clipStep flags viewport.sides ⟨p, 0⟩
  rw [← view, Bounded.length_toList]
  simp only [clip]
  split
  · exact Bounded.toList_clear _
  · rfl

/-- All vertices are inside the sides of a viewport that are named. -/
def Holds (viewport : Viewport) (flags : ClipFlags) (vertices : List Vertex) : Prop :=
  ∀ side ∈ viewport.sides, flags.contains side.1 = true → ∀ p ∈ vertices, side.2.inside p = true

theorem clip_of_holds {p : Polygon} {viewport : Viewport} (area : 3 ≤ p.toList.length)
    (holds : Holds viewport flags p.toList) : (p.clip viewport flags).polygon.toList = p.toList := by
  have room : p.toList.length ≤ polygonCapacity := by simpa using p.size_le
  rw [toList_clip, foldl_pass_of_inside viewport.sides room holds, if_neg (by omega)]

/-- **Containment.** A clipped polygon is empty or has an area; it is inside every side that was named and between the
extremes of the polygon, so that nothing is left of a polygon outside one side. A polygon inside stays as it is, and so
does a clipped one. -/
theorem clip_containment (p : Polygon) (viewport : Viewport) (flags : ClipFlags) (narrow : Narrow p.toList) :
    let r := (p.clip viewport flags).polygon
    (r.toList = [] ∨ 3 ≤ r.toList.length) ∧
      Holds viewport flags r.toList ∧
      (∀ q ∈ r.toList, Within p.toList q) ∧
      (∀ side ∈ viewport.sides, flags.contains side.1 = true → (∀ q ∈ p.toList, side.2.inside q = false) →
        r.toList = []) ∧
      (3 ≤ p.toList.length → Holds viewport flags p.toList → r.toList = p.toList) ∧
      (r.clip viewport flags).polygon.toList = r.toList := by
  intro r
  have view : r.toList = _ := toList_clip p viewport flags
  have within := within_foldl_pass flags viewport.sides narrow
  have inner := inside_foldl_pass flags viewport.sides narrow
  generalize viewport.sides.foldl (pass flags) p.toList = vertices at view within inner
  by_cases small : vertices.length < 3
  · rw [if_pos small] at view
    have gone : (r.clip viewport flags).polygon.toList = [] := by
      rw [toList_clip, view, foldl_pass_of_lt (by decide), if_pos (by decide)]
    refine ⟨.inl view, ?_, ?_, fun _ _ _ _ => view, clip_of_holds, gone.trans view.symm⟩
    · intro side _ _ q hq
      rw [view] at hq
      cases hq
    · intro q hq
      rw [view] at hq
      cases hq
  · rw [if_neg small] at view
    have area : 3 ≤ r.toList.length := by
      rw [view]
      omega
    have holds : Holds viewport flags r.toList := view ▸ inner (by omega)
    refine ⟨.inr area, holds, view ▸ within, ?_, clip_of_holds, clip_of_holds area holds⟩
    intro side hside named out
    obtain ⟨q, hq⟩ := List.exists_mem_of_length_pos (show 0 < r.toList.length by omega)
    have inQ := holds side hside named q hq
    rw [(within q (view ▸ hq)).outside out] at inQ
    cases inQ

/-! A triangle across all four sides of a viewport. -/

theorem narrow_corner : Narrow [⟨-20, -30, 0, 0⟩, ⟨150, 20, 40, 0⟩, ⟨30, 110, 0, 40⟩] := by
  intro p hp q hq a
  simp only [List.mem_cons, List.not_mem_nil, or_false] at hp hq
  rcases hp with rfl | rfl | rfl <;> rcases hq with rfl | rfl | rfl <;> cases a <;> decide

open ClipSide in
theorem cut_left_corner : (ClipSide.left 0).cut [⟨-20, -30, 0, 0⟩, ⟨150, 20, 40, 0⟩, ⟨30, 110, 0, 40⟩] =
    [⟨0, 26, 0, 16⟩, ⟨0, -24, 5, 0⟩, ⟨150, 20, 40, 0⟩, ⟨30, 110, 0, 40⟩] := by
  simp [cut, edges, cutEdge, inside, crossing, across, crossingUp, coordinate, ratio, reciprocal_of_pos, snap, lerp,
    wrap32]

open ClipSide in
theorem clip_containment_corner :
    let p := (collect [⟨-20, -30, 0, 0⟩, ⟨150, 20, 40, 0⟩, ⟨30, 110, 0, 40⟩]).polygon
    let viewport : Viewport := ⟨0, 0, 100, 80⟩
    let flags := ClipFlags.union .left .bottom
    let r := (p.clip viewport flags).polygon
    Narrow p.toList ∧
      r.toList = [⟨19, 80, 0, 31⟩, ⟨0, 26, 0, 16⟩, ⟨0, -24, 5, 0⟩, ⟨150, 20, 40, 0⟩, ⟨70, 80, 13, 27⟩] ∧
      Holds viewport flags r.toList ∧ (∀ q ∈ r.toList, Within p.toList q) ∧
      (r.clip viewport flags).polygon.toList = r.toList := by
  intro p viewport flags r
  have view : p.toList = [⟨-20, -30, 0, 0⟩, ⟨150, 20, 40, 0⟩, ⟨30, 110, 0, 40⟩] := toList_collect _
  have narrow : Narrow p.toList := view ▸ narrow_corner
  have cut_bottom : (ClipSide.bottom 80).cut [⟨0, 26, 0, 16⟩, ⟨0, -24, 5, 0⟩, ⟨150, 20, 40, 0⟩, ⟨30, 110, 0, 40⟩] =
      [⟨19, 80, 0, 31⟩, ⟨0, 26, 0, 16⟩, ⟨0, -24, 5, 0⟩, ⟨150, 20, 40, 0⟩, ⟨70, 80, 13, 27⟩] := by
    simp [cut, edges, cutEdge, inside, crossing, across, crossingUp, coordinate, ratio, reciprocal_of_pos, snap, lerp,
      wrap32]
  have left : pass flags _ (.left, .left 0) = _ :=
    (pass_of_named (by decide) (by rw [cut_left_corner]; decide)).trans cut_left_corner
  have right vertices : pass flags vertices (.right, .right 100) = vertices := pass_of_unnamed (by decide)
  have top vertices : pass flags vertices (.top, .top 0) = vertices := pass_of_unnamed (by decide)
  have bottom : pass flags _ (.bottom, .bottom 80) = _ :=
    (pass_of_named (by decide) (by rw [cut_bottom]; decide)).trans cut_bottom
  have passes : viewport.sides.foldl (pass flags) p.toList =
      [⟨19, 80, 0, 31⟩, ⟨0, 26, 0, 16⟩, ⟨0, -24, 5, 0⟩, ⟨150, 20, 40, 0⟩, ⟨70, 80, 13, 27⟩] := by
    rw [view, Viewport.sides, List.foldl_cons, List.foldl_cons, List.foldl_cons, List.foldl_cons, List.foldl_nil, left,
      right, top, bottom]
  have clipped : r.toList = _ := (toList_clip p viewport flags).trans (by rw [passes, if_neg (by decide)])
  obtain ⟨-, holds, within, -, -, again⟩ := clip_containment p viewport flags narrow
  exact ⟨narrow, clipped, holds, within, again⟩

end Polygon

end Redraw

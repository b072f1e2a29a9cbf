import Mathlib.Logic.Basic
import Mathlib.Tactic.MkIffOfInductiveProp
import Redraw.Canvas.Pixels
import Redraw.Canvas.Triangle

/-!
# The pixels of a triangle

Sorting orders the vertices and keeps them (`perm_sorted`, `sorted_ordered`), so the order in which distinct positions
are given does not matter (`sorted_eq`). A sorted triangle covers, in the rows from its upper to its lower vertex, the
columns from its left to its right bound. Filling a triangle sets the pixels of the canvas that it covers and no
others (`pixel?_fillTriangle`).
-/

namespace Redraw

theorem firstPixel_mono {v w : Int} (h : v ≤ w) : firstPixel v ≤ firstPixel w := by
  unfold firstPixel
  omega

theorem toOutput_mono {v w : Int} (k : Nat) (h : v ≤ w) : toOutput v k ≤ toOutput w k := by
  unfold toOutput
  exact Int.mul_le_mul_of_nonneg_right (Int.mul_le_mul_of_nonneg_right h (Int.natCast_nonneg k)) (by decide)

/-- The first column whose center is at or after the edge in row `Y`. -/
def Edge.column (e : Edge) (Y : Int) : Int := firstPixel (e.xAt (Y * 0x10000 + 0x8000))

namespace Vertex

/-- The first row whose center is at or below the vertex. -/
def row (p : Vertex) (k : Nat) : Int := firstPixel (toOutput p.y k)

theorem row_mono {p q : Vertex} (k : Nat) (h : p.y ≤ q.y) : p.row k ≤ q.row k :=
  firstPixel_mono (toOutput_mono k h)

theorem lt_of_row_lt {p q : Vertex} {k : Nat} (h : p.row k < q.row k) : p.y < q.y := by
  refine Int.not_le.1 fun le => ?_
  have := row_mono k le
  omega

theorem after_iff {p q : Vertex} : p.after q = true ↔ q.y < p.y ∨ p.y = q.y ∧ q.x < p.x := by
  simp [after]

theorem not_after_iff {p q : Vertex} : p.after q = false ↔ p.y < q.y ∨ p.y = q.y ∧ p.x ≤ q.x := by
  simp only [after, Bool.or_eq_false_iff, Bool.and_eq_false_iff, decide_eq_false_iff_not, beq_eq_false_iff_ne, ne_eq]
  omega

theorem le_of_not_after {p q : Vertex} (h : p.after q = false) : p.y ≤ q.y := by
  rw [not_after_iff] at h
  omega

end Vertex

def Span.Holds (s : Span) (X Y : Int) : Prop := s.y = Y ∧ s.left ≤ X ∧ X < s.right

instance (s : Span) (X Y : Int) : Decidable (s.Holds X Y) :=
  inferInstanceAs (Decidable (s.y = Y ∧ s.left ≤ X ∧ X < s.right))

open Vertex

namespace Triangle

/-! ## Sorting -/

def vertices (t : Triangle) : List Vertex := [t.a, t.b, t.c]

theorem a_mem_vertices (t : Triangle) : t.a ∈ t.vertices := List.mem_cons_self

theorem b_mem_vertices (t : Triangle) : t.b ∈ t.vertices := List.mem_cons_of_mem _ List.mem_cons_self

theorem c_mem_vertices (t : Triangle) : t.c ∈ t.vertices :=
  List.mem_cons_of_mem _ (List.mem_cons_of_mem _ List.mem_cons_self)

theorem forall_mem_vertices {t : Triangle} {P : Vertex → Prop} :
    (∀ p ∈ t.vertices, P p) ↔ P t.a ∧ P t.b ∧ P t.c := by
  rw [vertices, List.forall_mem_cons, List.forall_mem_cons, List.forall_mem_singleton]

theorem perm_sorted (t : Triangle) : t.sorted.vertices.Perm t.vertices := by
  have first (t : Triangle) : (if t.a.after t.b then ⟨t.b, t.a, t.c⟩ else t : Triangle).vertices.Perm t.vertices := by
    split
    · exact .swap ..
    · exact .refl _
  have second (t : Triangle) : (if t.a.after t.c then ⟨t.c, t.b, t.a⟩ else t : Triangle).vertices.Perm t.vertices := by
    split
    · exact List.reverse_perm [t.a, t.b, t.c]
    · exact .refl _
  have third (t : Triangle) : (if t.b.after t.c then ⟨t.a, t.c, t.b⟩ else t : Triangle).vertices.Perm t.vertices := by
    split
    · exact .cons _ (.swap ..)
    · exact .refl _
  exact (third _).trans ((second _).trans (first t))

theorem sorted_ordered (t : Triangle) :
    t.sorted.a.after t.sorted.b = false ∧ t.sorted.b.after t.sorted.c = false := by
  have first (t : Triangle) :
      let t' : Triangle := if t.a.after t.b then ⟨t.b, t.a, t.c⟩ else t
      t'.a.after t'.b = false := by
    split <;> simp only [after_iff, not_after_iff] at * <;> omega
  -- the upper vertex stays before the middle one when the lower vertex takes its place
  have second (t : Triangle) (ab : t.a.after t.b = false) :
      let t' : Triangle := if t.a.after t.c then ⟨t.c, t.b, t.a⟩ else t
      t'.a.after t'.b = false ∧ t'.a.after t'.c = false := by
    split <;> simp only [after_iff, not_after_iff] at * <;> omega
  have third (t : Triangle) (ab : t.a.after t.b = false ∧ t.a.after t.c = false) :
      let t' : Triangle := if t.b.after t.c then ⟨t.a, t.c, t.b⟩ else t
      t'.a.after t'.b = false ∧ t'.b.after t'.c = false := by
    split <;> simp only [after_iff, not_after_iff] at * <;> omega
  exact third _ (second _ (first t))

/-- Sorting finds the order of three vertices at distinct positions, in whatever order they are given. -/
theorem sorted_eq {t : Triangle} {a b c : Vertex} (perm : t.vertices.Perm [a, b, c]) (ab : b.after a = true)
    (bc : c.after b = true) : t.sorted = ⟨a, b, c⟩ := by
  have perm' := (perm_sorted t).trans perm
  obtain ⟨ordered, ordered'⟩ := sorted_ordered t
  rw [after_iff] at ab bc
  rw [not_after_iff] at ordered ordered'
  have before : t.sorted.vertices.Pairwise fun p q => p.after q = false := by
    simp [vertices, not_after_iff]
    omega
  have before' : [a, b, c].Pairwise fun p q => p.after q = false := by
    simp [not_after_iff]
    omega
  have same : t.sorted.vertices = [a, b, c] := by
    refine perm'.eq_of_pairwise ?_ before before'
    intro p q hp hq pq qp
    have hp := perm'.subset hp
    rw [not_after_iff] at pq qp
    simp only [List.mem_cons, List.not_mem_nil, or_false] at hp hq
    rcases hp with rfl | rfl | rfl <;> rcases hq with rfl | rfl | rfl <;> first | rfl | omega
  rw [vertices, List.cons.injEq, List.cons.injEq, List.cons.injEq] at same
  obtain ⟨ha, hb, hc, -⟩ := same
  rw [← ha, ← hb, ← hc]

/-- The positions of the vertices. -/
def positions (t : Triangle) : List (Int × Int) := t.vertices.map fun p => (p.x, p.y)

/-- Positions go from top to bottom, then from left to right. -/
def Ordered (corners : List (Int × Int)) : Prop := corners.Pairwise fun p q => p.2 < q.2 ∨ p.2 = q.2 ∧ p.1 ≤ q.1

theorem ordered_sorted (t : Triangle) : Ordered t.sorted.positions := by
  obtain ⟨ab, bc⟩ := sorted_ordered t
  rw [not_after_iff] at ab bc
  simp [Ordered, positions, vertices]
  omega

/-- Sorting puts the positions in order, in whatever order they are given. -/
theorem positions_sorted {t : Triangle} {corners : List (Int × Int)} (perm : t.positions.Perm corners)
    (ordered : Ordered corners) : t.sorted.positions = corners := by
  have perm' : t.sorted.positions.Perm corners := ((perm_sorted t).map _).trans perm
  refine perm'.eq_of_pairwise (fun p q _ _ pq qp => ?_) (ordered_sorted t) ordered
  exact Prod.ext (by omega) (by omega)

/-! ## Bounds

Row by row, a sorted triangle lies between its long edge and one of the two short ones. -/

/-- The side of the middle vertex does not depend on the scale. -/
def onLeft (t : Triangle) : Bool := t.middleOnLeft (.between t.a t.b 1) (.between t.a t.c 1)

def longEdge (t : Triangle) (k : Nat) : Edge := .between t.a t.c k

def shortEdge (t : Triangle) (k : Nat) (Y : Int) : Edge :=
  if Y < t.b.row k then .between t.a t.b k else .between t.b t.c k

def leftEdge (t : Triangle) (k : Nat) (Y : Int) : Edge := if t.onLeft then t.shortEdge k Y else t.longEdge k

def rightEdge (t : Triangle) (k : Nat) (Y : Int) : Edge := if t.onLeft then t.longEdge k else t.shortEdge k Y

/-- A sorted triangle covers a pixel, wherever the picture ends. -/
@[mk_iff]
structure Covers (t : Triangle) (k : Nat) (X Y : Int) : Prop where
  top : t.a.row k ≤ Y
  bottom : Y < t.c.row k
  left : (t.leftEdge k Y).column Y ≤ X
  right : X < (t.rightEdge k Y).column Y

instance (t : Triangle) (k : Nat) (X Y : Int) : Decidable (t.Covers k X Y) := decidable_of_iff _ (covers_iff ..).symm

/-! ## Runs -/

theorem holds_halfSpans {width height k : Nat} {upper lower : Vertex} {left right : Edge} {X Y : Int} :
    (∃ s ∈ halfSpans width height k upper lower left right, s.Holds X Y) ↔
      (0 ≤ X ∧ X < width ∧ 0 ≤ Y ∧ Y < height) ∧
        upper.row k ≤ Y ∧ Y < lower.row k ∧ left.column Y ≤ X ∧ X < right.column Y := by
  simp only [halfSpans, List.mem_filter, List.mem_map, mem_between, decide_eq_true_eq, Span.Holds]
  constructor
  · rintro ⟨s, ⟨⟨y, ⟨hy, hy'⟩, rfl⟩, nonempty⟩, rfl, hX, hX'⟩
    simp only [rowSpan, clamp] at hX hX' hy hy' ⊢
    unfold Edge.column row
    omega
  · rintro ⟨⟨hX, hX', hY, hY'⟩, hy, hy', left, right⟩
    unfold Edge.column row at *
    refine ⟨rowSpan width _ _ Y, ⟨⟨Y, ⟨by omega, by omega⟩, rfl⟩, ?_⟩, rfl, ?_⟩ <;> simp only [rowSpan, clamp] <;> omega

theorem holds_sortedSpans {width height k : Nat} {t : Triangle} {X Y : Int} (ab : t.a.y ≤ t.b.y) (bc : t.b.y ≤ t.c.y) :
    (∃ s ∈ sortedSpans width height k t, s.Holds X Y) ↔
      (0 ≤ X ∧ X < width ∧ 0 ≤ Y ∧ Y < height) ∧ t.Covers k X Y := by
  have upper := row_mono k ab
  have lower := row_mono k bc
  by_cases flat : t.a.y = t.c.y
  · have rows : t.a.row k = t.c.row k := by rw [row, row, flat]
    rw [sortedSpans, if_pos flat, covers_iff]
    simp
    omega
  · have spans : sortedSpans width height k t =
        if t.onLeft then
          halfSpans width height k t.a t.b (.between t.a t.b k) (t.longEdge k) ++
            halfSpans width height k t.b t.c (.between t.b t.c k) (t.longEdge k)
        else
          halfSpans width height k t.a t.b (t.longEdge k) (.between t.a t.b k) ++
            halfSpans width height k t.b t.c (t.longEdge k) (.between t.b t.c k) := if_neg flat
    rw [spans, covers_iff, leftEdge, rightEdge, shortEdge]
    cases t.onLeft with
    | true =>
      simp only [if_true, List.mem_append, or_and_right, exists_or, holds_halfSpans]
      split <;> omega
    | false =>
      simp only [Bool.false_eq_true, if_false, List.mem_append, or_and_right, exists_or, holds_halfSpans]
      split <;> omega

end Triangle

/-! ## Pixels -/

namespace Canvas

open Triangle

/-- Painting a span gives a pixel that it holds the color that the span has there. -/
theorem pixel?_paintSpan_of_color {c : Canvas} {s : Span} {color : Int → UInt8} {X Y : Int} {v : UInt8}
    (shade : s.y = Y → color X = v) :
    (c.paintSpan s.y s.left s.right color).pixel? X Y =
      if Screen.Contains c.scale X Y ∧ s.Holds X Y then some v else c.pixel? X Y := by
  rw [pixel?_paintSpan]
  by_cases row : s.y = Y
  · rw [shade row]
    refine if_congr ⟨?_, ?_⟩ rfl rfl
    · rintro ⟨-, left, right, inside⟩
      exact ⟨inside, row, left, right⟩
    · rintro ⟨inside, -, left, right⟩
      exact ⟨row.symm, left, right, inside⟩
  · rw [if_neg fun all => row all.1.symm, if_neg fun all => row all.2.1]

theorem pixel?_foldl_fillSpan (spans : List Span) (c : Canvas) (color : UInt8) (X Y : Int) :
    (spans.foldl (fun c s => c.fillSpan s.y s.left s.right color) c).pixel? X Y =
      if Screen.Contains c.scale X Y ∧ ∃ s ∈ spans, s.Holds X Y then some color else c.pixel? X Y := by
  refine pixel?_foldl spans c fun d _ s _ => ⟨d.scale_fillSpan .., ?_⟩
  rw [fillSpan_eq_paintSpan]
  exact pixel?_paintSpan_of_color fun _ => rfl

/-- Filling a triangle sets the pixels of the canvas that it covers, and no other pixel. -/
theorem pixel?_fillTriangle (c : Canvas) (t : Triangle) (color : UInt8) (X Y : Int) :
    (c.fillTriangle t color).pixel? X Y =
      if Screen.Contains c.scale X Y ∧ t.sorted.Covers c.scale X Y then some color else c.pixel? X Y := by
  obtain ⟨ab, bc⟩ := sorted_ordered t
  have same : Screen.Contains c.scale X Y ∧ (∃ s ∈ t.spans c.width c.height c.scale, s.Holds X Y) ↔
      Screen.Contains c.scale X Y ∧ t.sorted.Covers c.scale X Y := by
    rw [Triangle.spans, holds_sortedSpans (le_of_not_after ab) (le_of_not_after bc)]
    exact ⟨fun h => ⟨h.1, h.2.2⟩, fun h => ⟨h.1, h.1, h.2⟩⟩
  rw [fillTriangle, pixel?_foldl_fillSpan]
  simp only [same]

/-- A drawing in one color sets a pixel, on every canvas of the scale and with every color, exactly if it marks the pixel. -/
theorem sets_iff (drawing : Canvas → UInt8 → Canvas) {k : Nat} {X Y : Int} {mark : Prop} [Decidable mark]
    (drawn : ∀ c color, c.scale = k →
      (drawing c color).pixel? X Y = if Screen.Contains k X Y ∧ mark then some color else c.pixel? X Y) :
    (∀ c color, c.scale = k → (drawing c color).pixel? X Y = some color) ↔ Screen.Contains k X Y ∧ mark := by
  constructor
  · intro sets
    have filled := sets (.blank k) 1 rfl
    rw [drawn _ _ rfl, pixel?_blank] at filled
    split at filled
    · assumption
    · split at filled <;> cases filled
  · intro marked c color scale
    rw [drawn c color scale, if_pos marked]

end Canvas

/-- Filling the triangle sets a pixel, on every canvas of the scale and with every color. -/
def Triangle.Paints (t : Triangle) (k : Nat) (X Y : Int) : Prop :=
  ∀ (c : Canvas) (color : UInt8), c.scale = k → (c.fillTriangle t color).pixel? X Y = some color

theorem Triangle.paints_iff {t : Triangle} {k : Nat} {X Y : Int} :
    t.Paints k X Y ↔ Screen.Contains k X Y ∧ t.sorted.Covers k X Y := by
  refine Canvas.sets_iff (fun c color => c.fillTriangle t color) fun c color scale => ?_
  rw [Canvas.pixel?_fillTriangle, scale]

end Redraw

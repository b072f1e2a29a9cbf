import Redraw.Proofs.Triangle.Extent

/-!
# The order of the vertices

A fill sorts the vertices of its triangle by their positions. So the order in which they are given can only matter where
two of them are at one position, with different texture coordinates maybe. In every row of such a triangle both bounds
are the same edge, so it has no runs (`Triangle.sortedSpans_of_collapsed`). Plain and textured fills therefore ignore the
order of the vertices, and a texture of one color paints what a plain fill does (`Triangle.fills_agree`).
-/

namespace Redraw

namespace Vertex

/-- The vertices are at one position; their texture coordinates may differ. -/
def Coincides (p q : Vertex) : Prop := p.x = q.x ∧ p.y = q.y

variable {p q : Vertex}

theorem Coincides.symm (h : p.Coincides q) : q.Coincides p := ⟨h.1.symm, h.2.symm⟩

/-- Of two vertices at different positions one comes after the other. -/
theorem after_of_not_after (h : p.after q = false) (apart : ¬p.Coincides q) : q.after p = true := by
  rw [not_after_iff] at h
  rw [after_iff]
  unfold Coincides at apart
  omega

theorem Coincides.between_left (h : p.Coincides q) (r : Vertex) (k : Nat) : Edge.between p r k = Edge.between q r k := by
  rw [Edge.between, Edge.between, h.1, h.2]

theorem Coincides.between_right (h : p.Coincides q) (r : Vertex) (k : Nat) : Edge.between r p k = Edge.between r q k := by
  rw [Edge.between, Edge.between, h.1, h.2]

end Vertex

namespace Triangle

open Vertex

variable {t t' : Triangle}

/-! ## Vertices at one position -/

/-- Two neighbouring vertices of a sorted triangle are at one position. -/
def Collapsed (t : Triangle) : Prop := t.a.Coincides t.b ∨ t.b.Coincides t.c

theorem halfSpans_of_level {upper lower : Vertex} (level : upper.y = lower.y) (width height k : Nat) (left right : Edge) :
    halfSpans width height k upper lower left right = [] := by
  rw [halfSpans, level, between_eq_nil (by omega), List.map_nil, List.filter_nil]

/-- Nothing lies between an edge and itself. -/
theorem halfSpans_self (width height k : Nat) (upper lower : Vertex) (e : Edge) :
    halfSpans width height k upper lower e e = [] := by
  rw [halfSpans, List.filter_eq_nil_iff]
  intro s hs
  obtain ⟨y, -, rfl⟩ := List.mem_map.1 hs
  simp [rowSpan]

/-- A triangle with two vertices at one position paints nothing: one of its halves has no rows, and the other one is
bounded by the same edge on both sides. -/
theorem sortedSpans_of_collapsed (collapsed : t.Collapsed) (width height k : Nat) :
    sortedSpans width height k t = [] := by
  by_cases flat : t.a.y = t.c.y
  · rw [sortedSpans, if_pos flat]
  rw [sortedSpans, if_neg flat]
  dsimp only
  rcases collapsed with upper | lower
  · rw [← upper.between_left t.c k, halfSpans_of_level upper.2, halfSpans_of_level upper.2, halfSpans_self]
    exact ite_self _
  · rw [lower.between_right t.a k, halfSpans_of_level lower.2, halfSpans_of_level lower.2, halfSpans_self]
    exact ite_self _

/-! ## Vertices in another order -/

/-- The same vertices in another order are at the same positions when they are sorted. -/
theorem positions_sorted_eq (perm : t.vertices.Perm t'.vertices) : t.sorted.positions = t'.sorted.positions :=
  positions_sorted ((perm.trans (perm_sorted t').symm).map _) (ordered_sorted t')

theorem collapsed_congr (same : t.positions = t'.positions) : t.Collapsed ↔ t'.Collapsed := by
  simp only [positions, vertices, List.map_cons, List.map_nil, List.cons.injEq, Prod.mk.injEq, and_true] at same
  unfold Collapsed Coincides
  omega

/-- Sorting leaves the order open only where vertices are at one position. -/
theorem sorted_eq_or_collapsed (perm : t.vertices.Perm t'.vertices) :
    t.sorted = t'.sorted ∨ t.sorted.Collapsed ∧ t'.sorted.Collapsed := by
  by_cases collapsed : t'.sorted.Collapsed
  · exact .inr ⟨(collapsed_congr (positions_sorted_eq perm)).2 collapsed, collapsed⟩
  · obtain ⟨ab, bc⟩ := sorted_ordered t'
    rw [Collapsed, not_or] at collapsed
    exact .inl (sorted_eq (perm.trans (perm_sorted t').symm) (after_of_not_after ab collapsed.1)
      (after_of_not_after bc collapsed.2))

end Triangle

namespace Canvas

open Triangle

variable {t t' : Triangle}

theorem fillTriangle_of_collapsed (c : Canvas) (collapsed : t.sorted.Collapsed) (color : UInt8) :
    c.fillTriangle t color = c := by
  rw [fillTriangle, spans, sortedSpans_of_collapsed collapsed, List.foldl_nil]

theorem fillAffineTriangle_of_collapsed (c : Canvas) (collapsed : t.sorted.Collapsed) (texture : Texture) :
    c.fillAffineTriangle t texture = c := by
  rw [fillAffineTriangle, sortedSpans_of_collapsed collapsed, List.foldl_nil]

theorem fillTriangle_perm (c : Canvas) (perm : t.vertices.Perm t'.vertices) (color : UInt8) :
    c.fillTriangle t color = c.fillTriangle t' color := by
  rcases sorted_eq_or_collapsed perm with same | ⟨collapsed, collapsed'⟩
  · rw [fillTriangle, fillTriangle, spans, spans, same]
  · rw [c.fillTriangle_of_collapsed collapsed, c.fillTriangle_of_collapsed collapsed']

theorem fillAffineTriangle_perm (c : Canvas) (perm : t.vertices.Perm t'.vertices) (texture : Texture) :
    c.fillAffineTriangle t texture = c.fillAffineTriangle t' texture := by
  rcases sorted_eq_or_collapsed perm with same | ⟨collapsed, collapsed'⟩
  · rw [fillAffineTriangle, fillAffineTriangle, same]
  · rw [c.fillAffineTriangle_of_collapsed collapsed, c.fillAffineTriangle_of_collapsed collapsed']

theorem fillAffineTriangle?_perm (c : Canvas) (perm : t.vertices.Perm t'.vertices) (texture : Texture) :
    c.fillAffineTriangle? t texture = c.fillAffineTriangle? t' texture := by
  have same := positions_sorted_eq perm
  simp only [positions, vertices, List.map_cons, List.map_nil, List.cons.injEq, Prod.mk.injEq, and_true] at same
  rw [fillAffineTriangle?, fillAffineTriangle?, c.fillAffineTriangle_perm perm, same.1.2, same.2.2.2]

/-- A texture of one color paints what a plain fill does. -/
theorem fillAffineTriangle_const (c : Canvas) (t : Triangle) (color : UInt8) :
    c.fillAffineTriangle t (fun _ _ => color) = c.fillTriangle t color := by
  unfold fillAffineTriangle fillTriangle spans
  simp only [paintTexels_eq_paintSpan, fillSpan_eq_paintSpan]

end Canvas

/-- **Any order of vertices.** The order in which vertices are given shows neither in a plain nor in a textured fill, whatever
the texture, the scale and the texture coordinates of vertices at one position. A textured fill with a single color is a
plain fill with it, which sets the pixels that the triangle covers; and it fails on no canvas that has a scale. -/
theorem Triangle.fills_agree {t t' : Triangle} (perm : t.vertices.Perm t'.vertices) (c : Canvas) (color : UInt8)
    (texture : Texture) :
    c.fillTriangle t color = c.fillTriangle t' color ∧
      c.fillAffineTriangle? t texture = c.fillAffineTriangle? t' texture ∧
      c.fillAffineTriangle t (fun _ _ => color) = c.fillTriangle t color ∧
      (∀ X Y, (c.fillTriangle t color).pixel? X Y =
        if Screen.Contains c.scale X Y ∧ t.sorted.Covers c.scale X Y then some color else c.pixel? X Y) ∧
      (0 < c.scale → c.fillAffineTriangle? t texture = .ok (c.fillAffineTriangle t texture)) :=
  ⟨c.fillTriangle_perm perm color, c.fillAffineTriangle?_perm perm texture, c.fillAffineTriangle_const t color,
    c.pixel?_fillTriangle t color, fun pos => Canvas.fillAffineTriangle?_of_pos pos t texture⟩

/-- Two vertices are at one position and have different texture coordinates, so that sorting keeps them in the order in which
they are given. -/
theorem Triangle.fills_agree_folded :
    let t : Triangle := ⟨⟨8, 8, 0, 0⟩, ⟨8, 8, 40, 9⟩, ⟨80, 90, 16, 2⟩⟩
    let t' : Triangle := ⟨⟨80, 90, 16, 2⟩, ⟨8, 8, 40, 9⟩, ⟨8, 8, 0, 0⟩⟩
    t.vertices.Perm t'.vertices ∧ t.sorted ≠ t'.sorted ∧
      (Canvas.blank 2).fillAffineTriangle? t (fun u v => byteOf (u + v)) =
        (Canvas.blank 2).fillAffineTriangle? t' fun u v => byteOf (u + v) := by
  intro t t'
  have perm : t.vertices.Perm t'.vertices := by decide
  exact ⟨perm, by decide, (fills_agree perm (Canvas.blank 2) 0 _).2.1⟩

end Redraw

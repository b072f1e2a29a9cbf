import Mathlib.Tactic.Ring
import Mathlib.Tactic.Tauto
import Redraw.Proofs.Reciprocal
import Redraw.Proofs.Triangle.Coverage

/-!
# Triangles that share an edge

In the rows of a common edge, the edge bounds each of the two triangles on one side. Which side that is follows from
the side of the middle vertex, and each triangle judges that by its own rounded slopes (`JudgesMiddle`). Two triangles
on opposite sides of the edge are kept apart in these rows exactly when both judge rightly or both wrongly; in the
other rows, where both lie past the same end of the edge, nothing but their bounds keeps them apart
(`shared_edge_disjoint_iff`). Triangles that judge rightly and do not lie past the same end share no pixel
(`disjoint_of_judged`), but thin ones that judge wrongly do (`shared_edge_overlap`).
-/

namespace Redraw

/-! ## Sides of a line -/

/-- Twice the signed area of a triangle: zero when the vertices lie on a line, otherwise its sign tells the side of the
line from `p` to `q` that `r` lies on. -/
def turn (p q r : Vertex) : Int := (q.x - p.x) * (r.y - p.y) - (q.y - p.y) * (r.x - p.x)

theorem turn_swap (p q r : Vertex) : turn q p r = -turn p q r := by
  unfold turn
  ring

theorem turn_rotate (p q r : Vertex) : turn q r p = turn p q r := by
  unfold turn
  ring

theorem turn_self_left (p q : Vertex) : turn p q p = 0 := by
  unfold turn
  ring

theorem turn_self_right (p q : Vertex) : turn p q q = 0 := by
  unfold turn
  ring

/-- Strictly on opposite sides of the line through `p` and `q`. -/
def Opposite (p q r s : Vertex) : Prop :=
  turn p q r < 0 ∧ 0 < turn p q s ∨ 0 < turn p q r ∧ turn p q s < 0

instance (p q r s : Vertex) : Decidable (Opposite p q r s) :=
  inferInstanceAs (Decidable (turn p q r < 0 ∧ 0 < turn p q s ∨ 0 < turn p q r ∧ turn p q s < 0))

theorem Vertex.after_total (p q : Vertex) : p.after q = true ∨ q.after p = true ∨ p.x = q.x ∧ p.y = q.y := by
  rw [after_iff, after_iff]
  omega

namespace Triangle

open Vertex

/-! ## The bound at a common edge -/

/-- The rounded slopes put the middle vertex on the side of the long edge that it lies on. -/
def JudgesMiddle (t : Triangle) : Prop :=
  t.sorted.onLeft = true ↔ 0 < turn t.sorted.a t.sorted.c t.sorted.b

def leftBound (t : Triangle) (k : Nat) (Y : Int) : Int := (t.sorted.leftEdge k Y).column Y

def rightBound (t : Triangle) (k : Nat) (Y : Int) : Int := (t.sorted.rightEdge k Y).column Y

theorem bound_of_shortEdge {t : Triangle} {k : Nat} {Y : Int} {e : Edge} {side : Prop}
    (short : t.sorted.shortEdge k Y = e) (middle : 0 < turn t.sorted.a t.sorted.c t.sorted.b ↔ side) :
    ((t.JudgesMiddle ↔ side) → t.leftBound k Y = e.column Y) ∧
      (¬(t.JudgesMiddle ↔ side) → t.rightBound k Y = e.column Y) := by
  rw [JudgesMiddle, middle, leftBound, rightBound, leftEdge, rightEdge, short]
  cases t.sorted.onLeft with
  | true => exact ⟨fun _ => rfl, fun wrong => absurd (by tauto) wrong⟩
  | false => exact ⟨fun right => by tauto, fun _ => rfl⟩

theorem bound_of_longEdge {t : Triangle} {k : Nat} {Y : Int} {e : Edge} {side : Prop}
    (long : t.sorted.longEdge k = e) (middle : 0 < turn t.sorted.a t.sorted.c t.sorted.b ↔ ¬side) :
    ((t.JudgesMiddle ↔ side) → t.leftBound k Y = e.column Y) ∧
      (¬(t.JudgesMiddle ↔ side) → t.rightBound k Y = e.column Y) := by
  rw [JudgesMiddle, middle, leftBound, rightBound, leftEdge, rightEdge, long]
  cases t.sorted.onLeft with
  | true => exact ⟨fun right => by tauto, fun _ => rfl⟩
  | false => exact ⟨fun _ => rfl, fun wrong => absurd (by tauto) wrong⟩

/-- The edge from `u` down to `w` bounds a triangle on the side that the third vertex is judged to be on. -/
theorem bound_of_edge {t : Triangle} {u w v : Vertex} {k : Nat} {Y : Int} (perm : t.vertices.Perm [u, w, v])
    (down : w.after u = true) (area : turn u w v ≠ 0) (top : u.row k ≤ Y) (bottom : Y < w.row k) :
    ((t.JudgesMiddle ↔ turn u w v < 0) → t.leftBound k Y = (Edge.between u w k).column Y) ∧
      (¬(t.JudgesMiddle ↔ turn u w v < 0) → t.rightBound k Y = (Edge.between u w k).column Y) := by
  have swapped : turn u v w = -turn u w v := by rw [turn_rotate w u v, turn_swap]
  rcases v.after_total w with below | above | same
  · have sorted : t.sorted = ⟨u, w, v⟩ := sorted_eq perm down below
    refine bound_of_shortEdge ?_ ?_
    · rw [sorted]
      exact if_pos bottom
    · rw [sorted, swapped]
      omega
  · rcases v.after_total u with below | above | same
    · have sorted : t.sorted = ⟨u, v, w⟩ := sorted_eq (perm.trans (.cons _ (.swap ..))) below ‹_›
      refine bound_of_longEdge ?_ ?_
      · rw [sorted, longEdge]
      · rw [sorted, Int.not_lt]
        exact ⟨Int.le_of_lt, fun le => Int.lt_iff_le_and_ne.2 ⟨le, area.symm⟩⟩
    · have front : [u, w, v].Perm [v, u, w] := @List.perm_append_comm _ [u, w] [v]
      have sorted : t.sorted = ⟨v, u, w⟩ := sorted_eq (perm.trans front) above down
      refine bound_of_shortEdge ?_ ?_
      · rw [sorted]
        exact if_neg (by dsimp only; omega)
      · rw [sorted, turn_rotate u v w, swapped]
        omega
    · refine absurd ?_ area
      rw [turn, same.1, same.2]
      ring
  · refine absurd ?_ area
    rw [turn, same.1, same.2]
    ring

/-! ## Rows of two triangles -/

theorem bounds_of_paints {t : Triangle} {k : Nat} {X Y : Int} (h : t.Paints k X Y) :
    0 ≤ X ∧ X < (Screen.width * k : Nat) ∧ t.leftBound k Y ≤ X ∧ X < t.rightBound k Y := by
  obtain ⟨⟨lo, hi, -, -⟩, -, -, left, right⟩ := paints_iff.1 h
  exact ⟨lo, hi, left, right⟩

/-- A row that holds a pixel of a triangle holds all columns of the screen between its bounds. -/
theorem Paints.move {t : Triangle} {k : Nat} {X X' Y : Int} (h : t.Paints k X Y) (lo : 0 ≤ X')
    (hi : X' < (Screen.width * k : Nat)) (left : t.leftBound k Y ≤ X') (right : X' < t.rightBound k Y) :
    t.Paints k X' Y := by
  obtain ⟨⟨-, -, top, bottom⟩, top', bottom', -, -⟩ := paints_iff.1 h
  exact paints_iff.2 ⟨⟨lo, hi, top, bottom⟩, top', bottom', left, right⟩

/-- In a row that holds pixels of both, two triangles share none if and only if one of them ends before the other
starts. -/
theorem disjoint_row_iff {t t' : Triangle} {k : Nat} {Y : Int} (h : ∃ X, t.Paints k X Y) (h' : ∃ X, t'.Paints k X Y) :
    (∀ X, ¬(t.Paints k X Y ∧ t'.Paints k X Y)) ↔
      t.rightBound k Y ≤ t'.leftBound k Y ∨ t'.rightBound k Y ≤ t.leftBound k Y := by
  obtain ⟨X, h⟩ := h
  obtain ⟨X', h'⟩ := h'
  obtain ⟨lo, hi, left, right⟩ := bounds_of_paints h
  obtain ⟨lo', hi', left', right'⟩ := bounds_of_paints h'
  constructor
  · intro apart
    by_contra overlap
    -- both intervals of columns and the screen meet in pairs, so the last of their starts lies in all three
    have start := apart (max 0 (max (t.leftBound k Y) (t'.leftBound k Y)))
    exact start ⟨h.move (by omega) (by omega) (by omega) (by omega),
      h'.move (by omega) (by omega) (by omega) (by omega)⟩
  · rintro apart X'' ⟨both, both'⟩
    obtain ⟨-, -, left, right⟩ := bounds_of_paints both
    obtain ⟨-, -, left', right'⟩ := bounds_of_paints both'
    omega

/-- In the rows of a common edge, triangles on its two sides are kept apart if they judge alike. -/
theorem apart_iff_judge_alike {t t' : Triangle} {u w v v' : Vertex} {k : Nat} {Y : Int}
    (perm : t.vertices.Perm [u, w, v]) (perm' : t'.vertices.Perm [u, w, v']) (down : w.after u = true)
    (opposite : Opposite u w v v') (top : u.row k ≤ Y) (bottom : Y < w.row k)
    (h : ∃ X, t.Paints k X Y) (h' : ∃ X, t'.Paints k X Y) :
    (t.rightBound k Y ≤ t'.leftBound k Y ∨ t'.rightBound k Y ≤ t.leftBound k Y) ↔
      (t.JudgesMiddle ↔ t'.JudgesMiddle) := by
  have sides : turn u w v ≠ 0 ∧ turn u w v' ≠ 0 ∧ (turn u w v' < 0 ↔ ¬turn u w v < 0) := by
    unfold Opposite at opposite
    omega
  obtain ⟨area, area', other⟩ := sides
  obtain ⟨X, h⟩ := h
  obtain ⟨X', h'⟩ := h'
  obtain ⟨-, -, left, right⟩ := bounds_of_paints h
  obtain ⟨-, -, left', right'⟩ := bounds_of_paints h'
  obtain ⟨onRight, onLeft⟩ := bound_of_edge perm down area top bottom
  obtain ⟨onRight', onLeft'⟩ := bound_of_edge perm' down area' top bottom
  rw [other] at onRight' onLeft'
  have alike (P Q A : Prop) : (P ↔ Q) ↔ ((P ↔ A) ↔ ¬(Q ↔ ¬A)) := by
    by_cases side : A <;> simp [side, not_iff_not]
  rw [alike t.JudgesMiddle t'.JudgesMiddle (turn u w v < 0)]
  by_cases judged : t.JudgesMiddle ↔ turn u w v < 0 <;> by_cases judged' : t'.JudgesMiddle ↔ ¬turn u w v < 0
  · rw [onRight judged] at left ⊢
    rw [onRight' judged'] at left' ⊢
    exact iff_of_false (by omega) fun same => same.1 judged judged'
  · rw [onRight judged, onLeft' judged']
    exact iff_of_true (.inr le_rfl) (iff_of_true judged judged')
  · rw [onLeft judged, onRight' judged']
    exact iff_of_true (.inl le_rfl) (iff_of_false judged fun wrong => wrong judged')
  · rw [onLeft judged] at right ⊢
    rw [onLeft' judged'] at right' ⊢
    exact iff_of_false (by omega) fun same => judged (same.2 judged')

/-! ## Two triangles on one edge -/

/-- The row lies between the ends of the edge from `p` to `q`, in either direction. -/
def EdgeRow (p q : Vertex) (k : Nat) (Y : Int) : Prop :=
  p.row k ≤ Y ∧ Y < q.row k ∨ q.row k ≤ Y ∧ Y < p.row k

theorem edge_row_apart_iff {p q r s : Vertex} {k : Nat} {Y : Int} (opposite : Opposite p q r s) (row : EdgeRow p q k Y)
    (h : ∃ X, (⟨p, q, r⟩ : Triangle).Paints k X Y) (h' : ∃ X, (⟨q, s, p⟩ : Triangle).Paints k X Y) :
    (∀ X, ¬((⟨p, q, r⟩ : Triangle).Paints k X Y ∧ (⟨q, s, p⟩ : Triangle).Paints k X Y)) ↔
      ((⟨p, q, r⟩ : Triangle).JudgesMiddle ↔ (⟨q, s, p⟩ : Triangle).JudgesMiddle) := by
  rw [disjoint_row_iff h h']
  have qsp : [q, s, p].Perm [q, p, s] := .cons _ (.swap ..)
  rcases row with ⟨top, bottom⟩ | ⟨top, bottom⟩
  · have down : q.after p = true := after_iff.2 (.inl (lt_of_row_lt (lt_of_le_of_lt top bottom)))
    exact apart_iff_judge_alike (.refl _) (qsp.trans (.swap ..)) down opposite top bottom h h'
  · have down : p.after q = true := after_iff.2 (.inl (lt_of_row_lt (lt_of_le_of_lt top bottom)))
    have opposite : Opposite q p r s := by
      unfold Opposite at *
      rw [turn_swap p q r, turn_swap p q s]
      omega
    exact apart_iff_judge_alike (.swap ..) qsp down opposite top bottom h h'

/-- Two triangles on opposite sides of a common edge share no pixel if and only if in every row that holds pixels of
both they judge alike, where the row meets the edge, or their bounds are ordered, where it lies past an end of it. -/
theorem shared_edge_disjoint_iff (k : Nat) (p q r s : Vertex) (opposite : Opposite p q r s) :
    let t : Triangle := ⟨p, q, r⟩
    let t' : Triangle := ⟨q, s, p⟩
    (∀ X Y, ¬(t.Paints k X Y ∧ t'.Paints k X Y)) ↔
      ∀ Y, (∃ X, t.Paints k X Y) → (∃ X, t'.Paints k X Y) →
        (EdgeRow p q k Y → (t.JudgesMiddle ↔ t'.JudgesMiddle)) ∧
          (¬EdgeRow p q k Y → t.rightBound k Y ≤ t'.leftBound k Y ∨ t'.rightBound k Y ≤ t.leftBound k Y) := by
  intro t t'
  constructor
  · intro apart Y h h'
    exact ⟨fun row => (edge_row_apart_iff opposite row h h').1 fun X => apart X Y,
      fun _ => (disjoint_row_iff h h').1 fun X => apart X Y⟩
  · rintro rows X Y both
    obtain ⟨within, past⟩ := rows Y ⟨X, both.1⟩ ⟨X, both.2⟩
    by_cases row : EdgeRow p q k Y
    · exact (edge_row_apart_iff opposite row ⟨X, both.1⟩ ⟨X, both.2⟩).2 (within row) X both
    · exact (disjoint_row_iff ⟨X, both.1⟩ ⟨X, both.2⟩).2 (past row) X both

/-- A pixel of a triangle lies below one of the vertices and above another. -/
theorem rows_of_paints {t : Triangle} {k : Nat} {X Y : Int} (h : t.Paints k X Y) :
    (∃ v ∈ t.vertices, v.row k ≤ Y) ∧ ∃ v ∈ t.vertices, Y < v.row k := by
  obtain ⟨-, top, bottom, -, -⟩ := paints_iff.1 h
  have sorted := (perm_sorted t).subset
  exact ⟨⟨_, sorted (.head _), top⟩, ⟨_, sorted (.tail _ (.tail _ (.head _))), bottom⟩⟩

theorem third_above {p q r v : Vertex} {k : Nat} {Y : Int} (hv : v = p ∨ v = q ∨ v = r) (top : v.row k ≤ Y)
    (hp : Y < p.row k) (hq : Y < q.row k) : r.y < min p.y q.y := by
  have third : v = r := by rcases hv with rfl | rfl | rfl <;> first | rfl | omega
  subst third
  exact lt_min (lt_of_row_lt (lt_of_le_of_lt top hp)) (lt_of_row_lt (lt_of_le_of_lt top hq))

theorem third_below {p q r v : Vertex} {k : Nat} {Y : Int} (hv : v = p ∨ v = q ∨ v = r) (bottom : Y < v.row k)
    (hp : p.row k ≤ Y) (hq : q.row k ≤ Y) : max p.y q.y < r.y := by
  have third : v = r := by rcases hv with rfl | rfl | rfl <;> first | rfl | omega
  subst third
  exact max_lt (lt_of_row_lt (lt_of_le_of_lt hp bottom)) (lt_of_row_lt (lt_of_le_of_lt hq bottom))

/-- Triangles that judge rightly and do not both lie past the same end of their common edge share no pixel. -/
theorem disjoint_of_judged {p q r s : Vertex} (k : Nat) (opposite : Opposite p q r s)
    (judged : (⟨p, q, r⟩ : Triangle).JudgesMiddle) (judged' : (⟨q, s, p⟩ : Triangle).JudgesMiddle)
    (above : min p.y q.y ≤ max r.y s.y) (below : min r.y s.y ≤ max p.y q.y) (X Y : Int) :
    ¬((⟨p, q, r⟩ : Triangle).Paints k X Y ∧ (⟨q, s, p⟩ : Triangle).Paints k X Y) := by
  intro both
  obtain ⟨⟨v, hv, top⟩, ⟨w, hw, bottom⟩⟩ := rows_of_paints both.1
  obtain ⟨⟨v', hv', top'⟩, ⟨w', hw', bottom'⟩⟩ := rows_of_paints both.2
  simp only [vertices, List.mem_cons, List.not_mem_nil, or_false] at hv hw hv' hw'
  rw [← or_assoc, or_comm] at hv' hw'
  have row : EdgeRow p q k Y := by
    by_contra past
    rcases Int.lt_or_le Y (p.row k) with upper | lower
    · have upper' : Y < q.row k := by
        unfold EdgeRow at past
        omega
      have hr := third_above hv top upper upper'
      have hs := third_above hv' top' upper upper'
      omega
    · have lower' : q.row k ≤ Y := by
        unfold EdgeRow at past
        omega
      have hr := third_below hw bottom lower lower'
      have hs := third_below hw' bottom' lower lower'
      omega
  exact (edge_row_apart_iff opposite row ⟨X, both.1⟩ ⟨X, both.2⟩).2 (iff_of_true judged judged') X both

/-! A square cut along its diagonal, and two slivers with a common edge of which one judges wrongly. -/

theorem shared_edge_disjoint_square :
    let p : Vertex := .flat 0 0
    let q : Vertex := .flat 16 16
    let r : Vertex := .flat 16 0
    let s : Vertex := .flat 0 16
    Opposite p q r s ∧
      ∀ X Y, ¬((⟨p, q, r⟩ : Triangle).Paints 1 X Y ∧ (⟨q, s, p⟩ : Triangle).Paints 1 X Y) := by
  intro p q r s
  have opposite : Opposite p q r s := by decide
  have judged : (⟨p, q, r⟩ : Triangle).JudgesMiddle := by
    rw [JudgesMiddle, show (⟨p, q, r⟩ : Triangle).sorted = ⟨p, r, q⟩ by decide]
    simp [onLeft, middleOnLeft, turn, p, q, r, Vertex.flat]
  have judged' : (⟨q, s, p⟩ : Triangle).JudgesMiddle := by
    rw [JudgesMiddle, show (⟨q, s, p⟩ : Triangle).sorted = ⟨p, s, q⟩ by decide]
    simp [onLeft, middleOnLeft, Edge.between, slope, ratio, reciprocal_of_pos, turn, p, q, s, Vertex.flat]
  refine ⟨opposite, (shared_edge_disjoint_iff 1 p q r s opposite).2 fun Y h _ => ?_⟩
  have row : EdgeRow p q 1 Y := by
    obtain ⟨X, h⟩ := h
    obtain ⟨⟨v, hv, top⟩, ⟨w, hw, bottom⟩⟩ := rows_of_paints h
    have upper : ∀ v ∈ [p, q, r], p.row 1 ≤ v.row 1 := by decide
    have lower : ∀ w ∈ [p, q, r], w.row 1 ≤ q.row 1 := by decide
    exact .inl ⟨(upper v hv).trans top, lt_of_lt_of_le bottom (lower w hw)⟩
  exact ⟨fun _ => iff_of_true judged judged', fun past => absurd row past⟩

theorem shared_edge_overlap :
    ¬∀ (k : Nat) (p q r s : Vertex), 1 ≤ k →
      (∀ v ∈ [p, q, r, s], (-32768 ≤ v.x ∧ v.x < 32768) ∧ -32768 ≤ v.y ∧ v.y < 32768) → Opposite p q r s →
        ∀ X Y, ¬((⟨p, q, r⟩ : Triangle).Paints k X Y ∧ (⟨q, s, p⟩ : Triangle).Paints k X Y) := by
  intro never
  let p : Vertex := .flat 1654 206
  let q : Vertex := .flat 1431 788
  let r : Vertex := .flat 1695 99
  let s : Vertex := .flat 57 891
  have sorted : (⟨p, q, r⟩ : Triangle).sorted = ⟨r, p, q⟩ := by decide
  have sorted' : (⟨q, s, p⟩ : Triangle).sorted = ⟨p, q, s⟩ := by decide
  have covers : (⟨r, p, q⟩ : Triangle).Covers 1 196 52 ∧ (⟨p, q, s⟩ : Triangle).Covers 1 196 52 := by
    simp [covers_iff, leftEdge, rightEdge, onLeft, middleOnLeft, shortEdge, longEdge, Edge.column, Edge.xAt,
      Edge.between, slope, ratio, reciprocal_of_pos, row, toOutput, firstPixel, p, q, r, s, Vertex.flat]
  have onScreen : Screen.Contains 1 196 52 := by decide
  exact never 1 p q r s (by decide) (by decide) (by decide) 196 52
    ⟨paints_iff.2 ⟨onScreen, sorted ▸ covers.1⟩, paints_iff.2 ⟨onScreen, sorted' ▸ covers.2⟩⟩

end Triangle

end Redraw

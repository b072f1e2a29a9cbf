import Redraw.Proofs.Clip.Growth
import Redraw.Proofs.Triangle.SharedEdge

/-!
# A fan triangulates its polygon

The fan over `n` vertices has the triangles with the corners `0`, `i` and `i + 1`, for `i` from `n - 2` down to 1
(`Polygon.fan_eq_map`). What of it has a given side is a run of neighbours (`filter_fanCorners`): one triangle for a side of
the polygon, two for a diagonal. Seen from the first vertex, the fan is the path through the others
(`Polygon.fan_eq_path`). Along a path the areas of such triangles telescope (`sum_turn_path`), so those of the fan add up to
that of the polygon (`Polygon.fan_triangulates`).
-/

namespace Redraw

/-! ## Corners -/

/-- The corners of a triangle, as positions in a list of vertices. -/
structure Corners where
  first : Nat
  second : Nat
  third : Nat
  deriving DecidableEq, Repr

namespace Corners

def triangle (t : Corners) (vertices : List Vertex) : Triangle :=
  ⟨vertices.getD t.first default, vertices.getD t.second default, vertices.getD t.third default⟩

/-- The sides, each from one corner to the next. -/
def sides (t : Corners) : List (Nat × Nat) := [(t.first, t.second), (t.second, t.third), (t.third, t.first)]

/-- Whether a side connects the two positions, in one direction or the other. -/
def connects (t : Corners) (i j : Nat) : Bool := (i, j) ∈ t.sides || (j, i) ∈ t.sides

end Corners

/-- The corners of the fan over `n` vertices. -/
def fanCorners (n : Nat) : List Corners := (List.range' 1 (n - 2)).reverse.map fun i => ⟨0, i, i + 1⟩

theorem length_fanCorners (n : Nat) : (fanCorners n).length = n - 2 := by
  simp [fanCorners]

/-- The fan is listed from its last triangle on. -/
theorem getElem?_fanCorners {n i : Nat} (lo : 1 ≤ i) (hi : i ≤ n - 2) : (fanCorners n)[n - 2 - i]? = some ⟨0, i, i + 1⟩ := by
  rw [fanCorners, List.getElem?_map, List.getElem?_reverse (by rw [List.length_range']; omega), List.length_range',
    List.getElem?_range' (by omega), show 1 + 1 * (n - 2 - 1 - (n - 2 - i)) = i by omega]
  rfl

theorem filter_range' {first count lo len : Nat} {P : Nat → Bool} (start : first ≤ lo) (stop : lo + len ≤ first + count)
    (run : ∀ i, first ≤ i → i < first + count → (P i = true ↔ lo ≤ i ∧ i < lo + len)) :
    (List.range' first count).filter P = List.range' lo len := by
  obtain ⟨before, rfl⟩ := Nat.exists_eq_add_of_le start
  obtain ⟨behind, rfl⟩ : ∃ behind, count = before + len + behind := ⟨count - before - len, by omega⟩
  have skipped (lo' len' : Nat) (apart : lo' + len' ≤ first + before ∨ first + before + len ≤ lo') (above : first ≤ lo')
      (below : lo' + len' ≤ first + (before + len + behind)) : (List.range' lo' len').filter P = [] := by
    refine List.filter_eq_nil_iff.2 fun i mem => ?_
    rw [List.mem_range'_1] at mem
    rw [run i (by omega) (by omega)]
    omega
  have kept : (List.range' (first + before) len).filter P = List.range' (first + before) len := by
    refine List.filter_eq_self.2 fun i mem => ?_
    rw [List.mem_range'_1] at mem
    exact (run i (by omega) (by omega)).2 mem
  rw [← List.range'_append_1, ← List.range'_append_1, List.filter_append, List.filter_append, kept,
    skipped first before (by omega) (by omega) (by omega), skipped _ behind (by omega) (by omega) (by omega),
    List.nil_append, List.append_nil]

/-- The triangles of a fan that meet a condition on a run of positions, and no others. -/
theorem filter_fanCorners {n : Nat} (lo len : Nat) {P : Corners → Bool} (start : 1 ≤ lo) (stop : lo + len ≤ 1 + (n - 2))
    (run : ∀ i, 1 ≤ i → i < 1 + (n - 2) → (P ⟨0, i, i + 1⟩ = true ↔ lo ≤ i ∧ i < lo + len)) :
    (fanCorners n).filter P = (List.range' lo len).reverse.map fun i => ⟨0, i, i + 1⟩ := by
  rw [fanCorners, List.filter_map, List.filter_reverse, filter_range' (P := P ∘ fun i => ⟨0, i, i + 1⟩) start stop run]

theorem connects_iff {i a b : Nat} : (⟨0, i, i + 1⟩ : Corners).connects a b = true ↔
    (a = 0 ∧ b = i ∨ a = i ∧ b = i + 1 ∨ a = i + 1 ∧ b = 0) ∨ b = 0 ∧ a = i ∨ b = i ∧ a = i + 1 ∨ b = i + 1 ∧ a = 0 := by
  simp [Corners.connects, Corners.sides]

/-- A side of the polygon belongs to one triangle of the fan. -/
theorem filter_connects_side {n i : Nat} (area : 3 ≤ n) (lt : i < n) :
    ∃ t, (fanCorners n).filter (·.connects i ((i + 1) % n)) = [t] ∧ (i, (i + 1) % n) ∈ t.sides := by
  rcases Nat.eq_zero_or_pos i with rfl | pos
  · rw [Nat.mod_eq_of_lt (by omega)]
    refine ⟨⟨0, 1, 2⟩, filter_fanCorners 1 1 (by omega) (by omega) fun i lo hi => ?_, by decide⟩
    rw [connects_iff]
    omega
  rcases Nat.lt_or_ge (i + 1) n with inner | last
  · rw [Nat.mod_eq_of_lt inner]
    refine ⟨⟨0, i, i + 1⟩, filter_fanCorners i 1 (by omega) (by omega) fun i lo hi => ?_, by simp [Corners.sides]⟩
    rw [connects_iff]
    omega
  · obtain ⟨j, rfl, rfl⟩ : ∃ j, i = j + 1 ∧ n = j + 2 := ⟨i - 1, by omega, by omega⟩
    rw [Nat.mod_self]
    refine ⟨⟨0, j, j + 1⟩, filter_fanCorners j 1 (by omega) (by omega) fun i lo hi => ?_, by simp [Corners.sides]⟩
    rw [connects_iff]
    omega

/-- A diagonal of the fan belongs to two neighbours in it, in opposite directions. -/
theorem filter_connects_diagonal {n i : Nat} (lo : 2 ≤ i) (hi : i ≤ n - 2) :
    ∃ t t', (fanCorners n).filter (·.connects 0 i) = [t, t'] ∧
      ((0, i) ∈ t.sides ∧ (i, 0) ∉ t.sides) ∧ (i, 0) ∈ t'.sides ∧ (0, i) ∉ t'.sides := by
  obtain ⟨j, rfl⟩ : ∃ j, i = j + 1 := ⟨i - 1, by omega⟩
  refine ⟨⟨0, j + 1, j + 2⟩, ⟨0, j, j + 1⟩,
    filter_fanCorners j 2 (by omega) (by omega) fun i lo hi => ?_, ?_, ?_⟩
  · rw [connects_iff]
    omega
  · simp [Corners.sides]
  · simp [Corners.sides]
    omega

/-! ## Areas -/

/-- What an edge adds to the doubled area of a polygon: twice the signed area between the edge and the origin. -/
def cross (p q : Vertex) : Int := p.x * q.y - q.x * p.y

/-- Twice the signed area of a closed polygon, by the shoelace formula. -/
def doubledArea (vertices : List Vertex) : Int := ((ClipSide.edges vertices).map fun e => cross e.1 e.2).sum

theorem edges_eq_path {vertices : List Vertex} {z : Vertex} (last : vertices.getLast? = some z) :
    ClipSide.edges vertices = ClipSide.path z vertices := by
  obtain ⟨init, rfl⟩ := List.getLast?_eq_some_iff.1 last
  exact ClipSide.edges_concat init z

theorem path_eq_map (p : Vertex) (vertices : List Vertex) : ClipSide.path p vertices =
    (List.range vertices.length).map fun i => ((p :: vertices).getD i default, vertices.getD i default) := by
  induction vertices generalizing p with
  | nil => rfl
  | cons q vertices ih =>
    rw [ClipSide.path, ih, List.length_cons, List.range_succ_eq_map, List.map_cons, List.map_map]
    rfl

/-- Seen from one vertex, the triangles over the edges of a path have the areas of these edges and of the way back. -/
theorem sum_turn_path (o p : Vertex) {z : Vertex} (vertices : List Vertex) (last : (p :: vertices).getLast? = some z) :
    ((ClipSide.path p vertices).map fun e => turn o e.1 e.2).sum =
      cross o p + ((ClipSide.path p vertices).map fun e => cross e.1 e.2).sum + cross z o := by
  induction vertices generalizing p with
  | nil =>
    cases last
    simp [ClipSide.path, cross]
  | cons q vertices ih =>
    rw [List.getLast?_cons_cons] at last
    have step : turn o p q = cross o p + cross p q - cross o q := by
      unfold turn cross
      ring
    rw [ClipSide.path, List.map_cons, List.map_cons, List.sum_cons, List.sum_cons, ih q last, step]
    ring

namespace Polygon

theorem fan_eq_map (p : Polygon) : p.fan = (fanCorners p.size).map (·.triangle p.toList) := by
  rw [fan, fanCorners, List.range'_eq_map_range, ← List.map_reverse, List.map_map, List.map_map]
  refine List.map_congr_left fun i _ => ?_
  simp [fanTriangle, Corners.triangle, Nat.add_comm]

theorem fan_eq_path {p : Polygon} {o q : Vertex} {rest : List Vertex} (h : p.toList = o :: q :: rest) :
    p.fan = ((ClipSide.path q rest).map fun e => ⟨o, e.1, e.2⟩).reverse := by
  have size : p.size - 2 = rest.length := by
    rw [← Bounded.length_toList, h]
    rfl
  rw [fan, size, h, path_eq_map, List.map_map, List.map_reverse]
  rfl

theorem fan_eq_nil {p : Polygon} (h : p.toList.length ≤ 2) : p.fan = [] := by
  rw [fan, ← Bounded.length_toList, Nat.sub_eq_zero_of_le h]
  rfl

/-- The triangles of a fan have the area of the polygon. -/
theorem sum_turn_fan (p : Polygon) : (p.fan.map fun t => turn t.a t.b t.c).sum = doubledArea p.toList := by
  match h : p.toList with
  | [] =>
    rw [fan_eq_nil (by simp [h])]
    rfl
  | [o] =>
    rw [fan_eq_nil (by simp [h])]
    simp [doubledArea, ClipSide.edges, cross]
  | o :: q :: rest =>
    obtain ⟨z, last⟩ : ∃ z, (q :: rest).getLast? = some z := ⟨_, List.getLast?_eq_some_getLast (List.cons_ne_nil q rest)⟩
    have around : ClipSide.edges (o :: q :: rest) = (z, o) :: (o, q) :: ClipSide.path q rest :=
      edges_eq_path (List.getLast?_cons_cons.trans last)
    rw [fan_eq_path h, List.map_reverse, List.sum_reverse, List.map_map, doubledArea, around, List.map_cons, List.map_cons,
      List.sum_cons, List.sum_cons]
    exact (sum_turn_path o q rest last).trans (by ring)

/-- **A fan triangulates its polygon.** It has two triangles less than the polygon has vertices, with the corners `0`, `i` and
`i + 1` for `i` from the last but one position down to 1. By position, every side of the polygon belongs to one of them and
every diagonal from the first vertex to two, in opposite directions; and their areas add up to that of the polygon. -/
theorem fan_triangulates (p : Polygon) :
    p.fan.length = p.size - 2 ∧
    (∀ i, 1 ≤ i → i ≤ p.size - 2 → ∃ t, p.fan[p.size - 2 - i]? = some t ∧
      p.toList[0]? = some t.a ∧ p.toList[i]? = some t.b ∧ p.toList[i + 1]? = some t.c) ∧
    p.fan = (fanCorners p.size).map (·.triangle p.toList) ∧
    (3 ≤ p.size →
      (∀ i < p.size, ∃ t, (fanCorners p.size).filter (·.connects i ((i + 1) % p.size)) = [t] ∧
        (i, (i + 1) % p.size) ∈ t.sides) ∧
      ∀ i, 2 ≤ i → i ≤ p.size - 2 → ∃ t t', (fanCorners p.size).filter (·.connects 0 i) = [t, t'] ∧
        ((0, i) ∈ t.sides ∧ (i, 0) ∉ t.sides) ∧ (i, 0) ∈ t'.sides ∧ (0, i) ∉ t'.sides) ∧
    (p.fan.map fun t => turn t.a t.b t.c).sum = doubledArea p.toList := by
  refine ⟨?_, fun i lo hi => ?_, fan_eq_map p, fun area => ⟨fun i lt => filter_connects_side area lt, fun i lo hi => ?_⟩,
    sum_turn_fan p⟩
  · rw [fan_eq_map, List.length_map, length_fanCorners]
  · have corner (j : Nat) (lt : j < p.size) : p.toList[j]? = some (p.toList.getD j default) := by
      have lt : j < p.toList.length := by rwa [Bounded.length_toList]
      rw [List.getD_eq_getElem?_getD, List.getElem?_eq_getElem lt]
      rfl
    refine ⟨(⟨0, i, i + 1⟩ : Corners).triangle p.toList, ?_, corner 0 (by omega), corner i (by omega), corner (i + 1) (by omega)⟩
    rw [fan_eq_map, List.getElem?_map, getElem?_fanCorners lo hi]
    rfl
  · exact filter_connects_diagonal lo hi

/-- The fan over a pentagon with a dent: its middle triangle is turned the other way, and the areas still add up. -/
theorem fan_triangulates_dented :
    let p : Polygon := (collect [.flat 0 0, .flat 8 0, .flat 2 4, .flat 8 8, .flat 0 8]).polygon
    3 ≤ p.size ∧ (1 ≤ 2 ∧ 2 ≤ p.size - 2) ∧
      (∃ t t', (fanCorners p.size).filter (·.connects 0 2) = [t, t'] ∧ (0, 2) ∈ t.sides ∧ (2, 0) ∈ t'.sides) ∧
      (p.fan.map fun t => turn t.a t.b t.c).sum = 80 := by
  intro p
  have area : 3 ≤ p.size := by decide
  obtain ⟨-, -, -, shared, sum⟩ := fan_triangulates p
  obtain ⟨t, t', both, ⟨there, -⟩, back, -⟩ := (shared area).2 2 (by decide) (by decide)
  exact ⟨area, by decide, ⟨t, t', both, there, back⟩, sum.trans (by decide)⟩

end Polygon

end Redraw

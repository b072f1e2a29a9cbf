import Mathlib.Algebra.Order.Field.Rat
import Mathlib.Analysis.Convex.Hull
import Mathlib.Tactic.FieldSimp
import Mathlib.Tactic.Linarith
import Redraw.Proofs.Triangle.SharedEdge

/-!
# The triangle without rounding

The exact triangle is the convex hull of its vertices in the plane of output pixels. A height meets it in an interval
(`Triangle.slice`), whose ends are where two of its edges cross the height (`Crosses.slice_eq`): the long edge, and one of the
two short ones. All of it follows from the side of an edge that the third vertex lies on.
-/

namespace Redraw

/-- Where a vertex lies on the picture, in output pixels. -/
def Vertex.point (p : Vertex) (k : Nat) : ℚ × ℚ := (p.x * k / 8, p.y * k / 8)

/-- `turn` for a point of the picture: its sign tells the side of the line from `u` to `w` that the point lies on. -/
def turnAt (u w : Vertex) (k : Nat) (q : ℚ × ℚ) : ℚ :=
  (w.x - u.x) * (q.2 - u.y * k / 8) - (w.y - u.y) * (q.1 - u.x * k / 8)

/-- Where the line through two vertices crosses a height. -/
def crossing (u w : Vertex) (k : Nat) (y : ℚ) : ℚ := u.x * k / 8 + (w.x - u.x) * (y - u.y * k / 8) / (w.y - u.y)

variable {u w : Vertex} {k : Nat} {x y : ℚ}

theorem turnAt_point (u w p : Vertex) (k : Nat) : turnAt u w k (p.point k) = turn u w p * k / 8 := by
  unfold turnAt Vertex.point turn
  push_cast
  ring

theorem crossing_sub (down : u.y < w.y) (x y : ℚ) : crossing u w k y - x = turnAt u w k (x, y) / (w.y - u.y) := by
  have height : (w.y - u.y : ℚ) ≠ 0 := by
    have := Int.cast_lt (R := ℚ).2 down
    linarith
  unfold crossing turnAt
  field_simp
  ring

theorem turnAt_add {α β : ℚ} (sum : α + β = 1) (u w : Vertex) (k : Nat) (p q : ℚ × ℚ) :
    turnAt u w k (α • p + β • q) = α * turnAt u w k p + β * turnAt u w k q := by
  obtain rfl : β = 1 - α := by linarith
  simp only [turnAt, Prod.fst_add, Prod.snd_add, Prod.smul_fst, Prod.smul_snd, smul_eq_mul]
  ring

namespace Triangle

variable {t : Triangle}

/-- The corners of a triangle on the picture. -/
def corners (t : Triangle) (k : Nat) : Set (ℚ × ℚ) := {q | ∃ p ∈ t.vertices, p.point k = q}

/-- Where a height meets the exact triangle. -/
def slice (t : Triangle) (k : Nat) (y : ℚ) : Set ℚ := {x | (x, y) ∈ convexHull ℚ (t.corners k)}

theorem slice_sorted (t : Triangle) (k : Nat) (y : ℚ) : t.sorted.slice k y = t.slice k y := by
  have corners : t.sorted.corners k = t.corners k := by
    unfold Triangle.corners
    simp only [(perm_sorted t).mem_iff]
  rw [slice, corners, slice]

theorem ordConnected_slice (t : Triangle) (k : Nat) (y : ℚ) : (t.slice k y).OrdConnected := by
  have convex : Convex ℚ (t.slice k y) := by
    intro x hx x' hx' α β hα hβ sum
    have between := convex_convexHull ℚ (t.corners k) hx hx' hα hβ sum
    rwa [Prod.smul_mk, Prod.smul_mk, Prod.mk_add_mk, ← add_smul, sum, one_smul] at between
  exact convex.ordConnected

/-- The edge from `u` down to `w` crosses a height between its ends, and the turn of the third vertex from it is `τ`. -/
structure Crosses (t : Triangle) (k : Nat) (y : ℚ) (u w : Vertex) (τ : ℤ) : Prop where
  upper : u ∈ t.vertices
  lower : w ∈ t.vertices
  down : u.y < w.y
  top : u.y * k / 8 ≤ y
  bottom : y < w.y * k / 8
  turns : ∀ p ∈ t.vertices, turn u w p = 0 ∨ turn u w p = τ

namespace Crosses

variable {u' w' : Vertex} {τ : ℤ}

theorem fall_pos (edge : t.Crosses k y u w τ) : (0 : ℚ) < w.y - u.y := sub_pos.2 (Int.cast_lt.2 edge.down)

theorem mem_slice (edge : t.Crosses k y u w τ) (pos : 0 < k) : crossing u w k y ∈ t.slice k y := by
  have fall := edge.fall_pos
  have scale : (0 : ℚ) < k := Nat.cast_pos.2 pos
  have top := edge.top
  have bottom := edge.bottom
  -- the part of the way down the edge
  obtain ⟨α, way⟩ : ∃ α : ℚ, y - u.y * k / 8 = α * ((w.y - u.y) * k / 8) :=
    ⟨_, (div_mul_cancel₀ _ (by positivity)).symm⟩
  have start : 0 ≤ α := by
    refine nonneg_of_mul_nonneg_left (b := (w.y - u.y) * k / 8) ?_ (by positivity)
    linarith
  have stop : α ≤ 1 := by
    refine le_of_mul_le_mul_right (a := (w.y - u.y : ℚ) * k / 8) ?_ (by positivity)
    linarith
  have column : crossing u w k y = (1 - α) * (u.x * k / 8) + α * (w.x * k / 8) := by
    unfold crossing
    rw [way]
    field_simp
    ring
  have on_edge : (crossing u w k y, y) ∈ segment ℚ (u.point k) (w.point k) := by
    refine ⟨1 - α, α, by linarith, start, by ring, Prod.ext column.symm ?_⟩
    simp only [Vertex.point, Prod.smul_mk, Prod.mk_add_mk, smul_eq_mul]
    linarith
  have upper : u.point k ∈ t.corners k := ⟨u, edge.upper, rfl⟩
  have lower : w.point k ∈ t.corners k := ⟨w, edge.lower, rfl⟩
  exact segment_subset_convexHull upper lower on_edge

/-- All points of the triangle lie on the side of the third vertex, and no farther away than it. -/
theorem turnAt_mem (edge : t.Crosses k y u w τ) (mem : x ∈ t.slice k y) :
    turnAt u w k (x, y) ∈ Set.uIcc 0 (τ * k / 8 : ℚ) := by
  have corner (p : Vertex) (hp : p ∈ t.vertices) : turnAt u w k (p.point k) ∈ Set.uIcc 0 (τ * k / 8 : ℚ) := by
    rw [turnAt_point]
    rcases edge.turns p hp with zero | same
    · rw [zero, Int.cast_zero, zero_mul, zero_div]
      exact Set.left_mem_uIcc
    · rw [same]
      exact Set.right_mem_uIcc
  have corners : t.corners k ⊆ {q | turnAt u w k q ∈ Set.uIcc 0 (τ * k / 8 : ℚ)} := by
    rintro _ ⟨p, hp, rfl⟩
    exact corner p hp
  refine convexHull_min corners (fun p hp q hq α β hα hβ sum => ?_) mem
  have between := convex_uIcc 0 (τ * k / 8 : ℚ) hp hq hα hβ sum
  rwa [smul_eq_mul, smul_eq_mul, ← turnAt_add sum] at between

theorem le_crossing (edge : t.Crosses k y u w τ) (left : 0 ≤ τ) (mem : x ∈ t.slice k y) : x ≤ crossing u w k y := by
  have side := edge.turnAt_mem mem
  rw [Set.uIcc_of_le (by positivity)] at side
  rw [← sub_nonneg, crossing_sub edge.down]
  exact div_nonneg side.1 edge.fall_pos.le

theorem crossing_le (edge : t.Crosses k y u w τ) (right : τ ≤ 0) (mem : x ∈ t.slice k y) : crossing u w k y ≤ x := by
  have side := edge.turnAt_mem mem
  have away : (τ * k / 8 : ℚ) ≤ 0 := by
    have := mul_nonpos_of_nonpos_of_nonneg (Int.cast_nonpos.2 right : (τ : ℚ) ≤ 0) (Nat.cast_nonneg (α := ℚ) k)
    linarith
  rw [Set.uIcc_of_ge away] at side
  rw [← sub_nonpos, crossing_sub edge.down]
  exact div_nonpos_of_nonpos_of_nonneg side.2 edge.fall_pos.le

/-- The triangle is at most as wide as the third vertex is away from the edge. -/
theorem abs_crossing_sub_le (edge : t.Crosses k y u w τ) (mem : x ∈ t.slice k y) :
    |crossing u w k y - x| ≤ |(τ : ℚ)| * k / 8 / (w.y - u.y) := by
  have side := Set.abs_sub_left_of_mem_uIcc (edge.turnAt_mem mem)
  rw [sub_zero, sub_zero, abs_div, abs_mul, Nat.abs_cast, abs_of_pos (by norm_num : (0 : ℚ) < 8)] at side
  rw [crossing_sub edge.down, abs_div, abs_of_pos edge.fall_pos]
  exact div_le_div_of_nonneg_right side edge.fall_pos.le

/-- Where the triangle is wider than an eighth of a logical pixel, the turn is at least the height of the edge. -/
theorem fall_le_abs (edge : t.Crosses k y u w τ) (pos : 0 < k) (mem : x ∈ t.slice k y)
    (wide : (k / 8 : ℚ) < |crossing u w k y - x|) : w.y - u.y ≤ |τ| := by
  have unit : (0 : ℚ) < k / 8 := by positivity
  have narrow := wide.trans_le (edge.abs_crossing_sub_le mem)
  rw [lt_div_iff₀ edge.fall_pos, mul_comm, mul_div_assoc] at narrow
  exact_mod_cast (lt_of_mul_lt_mul_right narrow unit.le).le

/-- Between two edges with the triangle on opposite sides lies the whole slice. -/
theorem slice_eq (edge : t.Crosses k y u w τ) (edge' : t.Crosses k y u' w' (-τ)) (pos : 0 < k) :
    t.slice k y = Set.uIcc (crossing u w k y) (crossing u' w' k y) := by
  refine Set.Subset.antisymm (fun x mem => ?_) ?_
  · rcases le_total 0 τ with left | right
    · exact Set.mem_uIcc_of_ge (edge'.crossing_le (by omega) mem) (edge.le_crossing left mem)
    · exact Set.mem_uIcc_of_le (edge.crossing_le right mem) (edge'.le_crossing (by omega) mem)
  · exact (t.ordConnected_slice k y).uIcc_subset (edge.mem_slice pos) (edge'.mem_slice pos)

end Crosses

end Triangle

end Redraw

import Redraw.Geometry.Clip
import Redraw.Proofs.Reciprocal

/-!
# Crossings lie between their ends

The four coordinates of a vertex are treated alike. A crossing is reckoned from the lower end of its edge up
(`crossing_eq_crossingUp`), whichever end comes first. Where an edge crosses a side, each coordinate of the crossing lies
between those of the ends (`crossing_between`), and the crossing itself lies on the side (`inside_crossing`). So for
any side, a crossing is inside if both ends are and outside if both are (`inside_of_between`).
-/

namespace Redraw

inductive Axis where
  | x
  | y
  | u
  | v
  deriving DecidableEq, Repr

def Vertex.along (p : Vertex) : Axis → Int
  | .x => p.x
  | .y => p.y
  | .u => p.u
  | .v => p.v

/-- Every coordinate of `z` lies between those of `p` and `q`. -/
def Between (p q z : Vertex) : Prop :=
  ∀ a, min (p.along a) (q.along a) ≤ z.along a ∧ z.along a ≤ max (p.along a) (q.along a)

theorem Between.symm {p q z : Vertex} (h : Between p q z) : Between q p z := by
  intro a
  rw [min_comm, max_comm]
  exact h a

/-- Both differences of two vertices fit a word, along every axis. -/
def Near (p q : Vertex) : Prop :=
  ∀ a, p.along a - q.along a < 2147483648 ∧ q.along a - p.along a < 2147483648

theorem Near.symm {p q : Vertex} (h : Near p q) : Near q p := fun a => (h a).symm

/-- The way from `p` to `q` fits a word, along every axis. -/
def FitsWord (p q : Vertex) : Prop := ∀ a, -2147483648 ≤ q.along a - p.along a ∧ q.along a - p.along a < 2147483648

theorem Near.fitsWord {p q : Vertex} (h : Near p q) : FitsWord p q := by
  intro a
  have := h a
  omega

/-- Coordinates of the vertices are so small that none of their differences leaves the range of a word. -/
def Narrow (vertices : List Vertex) : Prop := ∀ p ∈ vertices, ∀ q ∈ vertices, Near p q

namespace ClipSide

/-- A side between two vertices separates them, and they differ across it. -/
theorem straddle {s : ClipSide} {p q : Vertex} (apart : s.inside p ≠ s.inside q) :
    s.across p ≠ s.across q ∧ min (s.across p) (s.across q) ≤ s.coordinate ∧
      s.coordinate ≤ max (s.across p) (s.across q) := by
  cases s <;> simp only [inside, across, coordinate, ne_eq, decide_eq_decide] at apart ⊢ <;> omega

/-- The axis that the side cuts across. -/
def axis : ClipSide → Axis
  | .left _ | .right _ => .x
  | .top _ | .bottom _ => .y

theorem across_eq_along (s : ClipSide) (p : Vertex) : s.across p = p.along s.axis := by
  cases s <;> rfl

theorem along_crossingUp_axis (s : ClipSide) (p q : Vertex) : (s.crossingUp p q).along s.axis = s.coordinate := by
  cases s <;> rfl

theorem along_crossingUp {s : ClipSide} {a : Axis} (other : a ≠ s.axis) (p q : Vertex) :
    (s.crossingUp p q).along a =
      lerp (p.along a) (q.along a) (ratio (s.coordinate - s.across p) (s.across q - s.across p)) := by
  cases s <;> cases a <;> first | rfl | exact absurd rfl other

theorem crossingUp_between {s : ClipSide} {p q : Vertex} (up : s.across p < s.across q)
    (lo : s.across p ≤ s.coordinate) (hi : s.coordinate ≤ s.across q) (fits : FitsWord p q) :
    Between p q (s.crossingUp p q) := by
  have part : 0 ≤ ratio (s.coordinate - s.across p) (s.across q - s.across p) :=
    ratio_nonneg (by omega) (by omega)
  have whole : ratio (s.coordinate - s.across p) (s.across q - s.across p) ≤ 0x40000000 :=
    ratio_le_one (by omega) (by omega)
  intro a
  by_cases other : a = s.axis
  · rw [other, along_crossingUp_axis, ← across_eq_along, ← across_eq_along]
    omega
  · rw [along_crossingUp other]
    exact lerp_between part whole (fits a).1 (fits a).2

/-! ## The ends of an edge -/

def lowerEnd (s : ClipSide) (p q : Vertex) : Vertex := if s.across p ≤ s.across q then p else q

def upperEnd (s : ClipSide) (p q : Vertex) : Vertex := if s.across p ≤ s.across q then q else p

theorem ends_cases (s : ClipSide) (p q : Vertex) :
    s.lowerEnd p q = p ∧ s.upperEnd p q = q ∨ s.lowerEnd p q = q ∧ s.upperEnd p q = p := by
  unfold lowerEnd upperEnd
  split
  · exact .inl ⟨rfl, rfl⟩
  · exact .inr ⟨rfl, rfl⟩

theorem crossing_eq_crossingUp (s : ClipSide) (p q : Vertex) :
    s.crossing p q = s.crossingUp (s.lowerEnd p q) (s.upperEnd p q) := by
  rw [crossing, lowerEnd, upperEnd]
  split <;> rfl

/-- A side that separates two vertices lies between the lower and the upper one. -/
theorem ends_straddle {s : ClipSide} {p q : Vertex} (apart : s.inside p ≠ s.inside q) :
    s.across (s.lowerEnd p q) < s.across (s.upperEnd p q) ∧ s.across (s.lowerEnd p q) ≤ s.coordinate ∧
      s.coordinate ≤ s.across (s.upperEnd p q) := by
  obtain ⟨differ, lo, hi⟩ := straddle apart
  unfold lowerEnd upperEnd
  split <;> omega

/-- Each coordinate of a crossing lies between those of the ends, if the way up fits a word. -/
theorem crossing_between_of_fitsWord {s : ClipSide} {p q : Vertex} (apart : s.inside p ≠ s.inside q)
    (fits : FitsWord (s.lowerEnd p q) (s.upperEnd p q)) : Between p q (s.crossing p q) := by
  obtain ⟨up, lo, hi⟩ := ends_straddle apart
  have between := crossingUp_between up lo hi fits
  rw [← crossing_eq_crossingUp] at between
  rcases s.ends_cases p q with ⟨lower, upper⟩ | ⟨lower, upper⟩
  · rwa [lower, upper] at between
  · rw [lower, upper] at between
    exact between.symm

theorem crossing_between {s : ClipSide} {p q : Vertex} (apart : s.inside p ≠ s.inside q) (near : Near p q) :
    Between p q (s.crossing p q) := by
  refine crossing_between_of_fitsWord apart ?_
  rcases s.ends_cases p q with ⟨lower, upper⟩ | ⟨lower, upper⟩
  · rw [lower, upper]
    exact near.fitsWord
  · rw [lower, upper]
    exact near.symm.fitsWord

theorem inside_crossing (s : ClipSide) (p q : Vertex) : s.inside (s.crossing p q) = true := by
  unfold crossing
  split <;> cases s <;> simp [crossingUp, snap, inside]

/-- Half planes are convex: what lies between two vertices is on their side. -/
theorem inside_of_between {p q z : Vertex} (h : Between p q z) (s : ClipSide) :
    s.inside z = s.inside p ∨ s.inside z = s.inside q := by
  have alongX := h .x
  have alongY := h .y
  cases s <;> simp only [inside, Vertex.along, decide_eq_decide] at * <;> omega

end ClipSide

end Redraw

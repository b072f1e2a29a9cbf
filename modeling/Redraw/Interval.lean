/-!
# Half-open intervals of integers

Rows and columns are walked as lists of integers. The walk over `[lo, hi)` visits exactly the integers of
the interval, in increasing order.
-/

namespace Redraw

/-- The integers `lo, lo + 1, …, hi - 1` in increasing order; none when `hi ≤ lo`. -/
def between (lo hi : Int) : List Int :=
  (List.range (hi - lo).toNat).map fun i : Nat => lo + (i : Int)

/-- The number of `[lo, hi]` nearest to `x`, for `lo ≤ hi`. -/
def clamp (x lo hi : Int) : Int := max lo (min x hi)

@[simp]
theorem mem_between {lo hi x : Int} : x ∈ between lo hi ↔ lo ≤ x ∧ x < hi := by
  simp only [between, List.mem_map, List.mem_range]
  constructor
  · rintro ⟨i, hi', rfl⟩
    omega
  · rintro ⟨h₁, h₂⟩
    exact ⟨(x - lo).toNat, by omega, by omega⟩

theorem length_between (lo hi : Int) : (between lo hi).length = (hi - lo).toNat := by
  simp [between]

theorem between_eq_nil {lo hi : Int} (h : hi ≤ lo) : between lo hi = [] := by
  have : (hi - lo).toNat = 0 := by omega
  simp [between, this]

end Redraw

import Redraw.Engine.DownhillJam
import Redraw.Proofs.Canvas.Scale

/-!
# The rows of a flat region

A region is filled row by row, and its edges are moved along and wrap around. So in each row they are words that agree with
`start * k + delta * row` (`DownhillJam.Area.moveEdges_edgesIn`), and the loop over the rows fills each of them between these
edges (`DownhillJam.Area.fillRows_edgesIn`). It goes on below the picture, as many rows as a word counts, but changes nothing
there (`DownhillJam.Area.fillRows_of_below`); a fill that ends at the bottom is the whole loop
(`DownhillJam.Area.fill_eq_fillRows`).
-/

namespace Redraw

theorem wrap32_add_wrap32 (x y : Int) : wrap32 (wrap32 x + y) = wrap32 (x + y) := by
  rw [wrap32_eq_bmod, wrap32_eq_bmod, wrap32_eq_bmod, Int.bmod_add_bmod]

/-- A row below a picture stays below it, or comes out above it, when its number wraps around once. -/
theorem not_mem_rows_of_wrap32 {y : Int} {height : Nat} (below : height ≤ y) (once : y < 4294967296) :
    ¬(0 ≤ wrap32 y ∧ wrap32 y < height) := by
  rw [wrap32_eq_bmod, Int.bmod]
  omega

theorem Screen.rowOf_le (pointer : Address) : rowOf pointer ≤ 170 := by
  have := Nat.mod_lt (pointer - frame0Address).toNat (show 0 < frameSize.toNat by decide)
  rw [rowOf, UInt32.toNat_mod, width]
  change _ < 40960 at this
  change _ % 40960 / 240 ≤ 170
  omega

theorem Canvas.fillSpan_of_not_row {c : Canvas} {y : Int} (out : ¬(0 ≤ y ∧ y < c.height)) (left right : Int) (v : UInt8) :
    c.fillSpan y left right v = c := by
  rw [fillSpan, span?, if_neg fun all => out ⟨all.1, all.2.1⟩]

namespace DownhillJam.Area

variable {a : Area} {c : Canvas} {k : Nat}

/-! ## Edges -/

/-- The edges in row `y` at a scale, reckoned from those of the first row at once. -/
def edgesIn (a : Area) (k y : Nat) : Edges where
  left := wrap32 (a.left * k + a.leftDelta * y)
  right := wrap32 (a.right * k + a.rightDelta * y)

theorem firstEdges_eq (a : Area) (k : Nat) : a.firstEdges k = a.edgesIn k 0 := by
  simp only [firstEdges, edgesIn, Int.natCast_zero, Int.mul_zero, Int.add_zero]

/-- Edges that are moved by a row are those of the next row. -/
theorem moveEdges_edgesIn (a : Area) (k y : Nat) : a.moveEdges (a.edgesIn k y) = a.edgesIn k (y + 1) := by
  simp only [moveEdges, edgesIn, wrap32_add_wrap32, Int.natCast_add, Int.natCast_one, Int.mul_add, Int.mul_one,
    Int.add_assoc]

/-- From row `y` on, the loop fills each row between its edges. -/
theorem fillRows_edgesIn (a : Area) (c : Canvas) (k y n : Nat) :
    a.fillRows c y (a.edgesIn k y) n = (List.range' y n).foldl (fun c y => a.fillRow c y (a.edgesIn k y)) c := by
  induction n generalizing c y with
  | zero => rfl
  | succ n ih => rw [fillRows, moveEdges_edgesIn, ih, List.range'_succ, List.foldl_cons]

/-! ## Rows below the picture -/

@[simp]
theorem scale_fillRow (a : Area) (c : Canvas) (y : Nat) (e : Edges) : (a.fillRow c y e).scale = c.scale := by
  unfold fillRow
  dsimp only
  split
  · exact c.scale_fillSpan ..
  · rfl

theorem scale_fillRows (a : Area) (c : Canvas) (y : Nat) (e : Edges) (n : Nat) :
    (a.fillRows c y e n).scale = c.scale := by
  induction n generalizing c y e with
  | zero => rfl
  | succ n ih => rw [fillRows, ih, scale_fillRow]

theorem fillRow_of_below {y : Nat} (below : c.height ≤ a.top c.scale + y) (once : a.top c.scale + y < 4294967296)
    (e : Edges) : a.fillRow c y e = c := by
  unfold fillRow
  dsimp only
  rw [Canvas.fillSpan_of_not_row (not_mem_rows_of_wrap32 below once), ite_self]

theorem fillRows_of_below {y n : Nat} (below : c.height ≤ a.top c.scale + y)
    (once : a.top c.scale + (y + n : Nat) ≤ 4294967296) (e : Edges) : a.fillRows c y e n = c := by
  induction n generalizing y e with
  | zero => rfl
  | succ n ih =>
    rw [fillRows, fillRow_of_below below (by omega)]
    exact ih (by omega) (by omega) _

/-- The loop over some rows and more of them goes over the first ones first. -/
theorem exists_fillRows_add (a : Area) (c : Canvas) (y : Nat) (e : Edges) (m n : Nat) :
    ∃ e', a.fillRows c y e (m + n) = a.fillRows (a.fillRows c y e m) (y + m) e' n := by
  induction m generalizing c y e with
  | zero => exact ⟨e, by rw [Nat.zero_add]; rfl⟩
  | succ m ih =>
    obtain ⟨e', rest⟩ := ih (a.fillRow c y e) (y + 1) (a.moveEdges e)
    refine ⟨e', ?_⟩
    rw [Nat.succ_add, fillRows, fillRows, rest, Nat.add_assoc y 1 m, Nat.add_comm 1 m]

theorem top_nonneg (a : Area) (k : Nat) : 0 ≤ a.top k := Int.mul_nonneg (Int.natCast_nonneg _) (Int.natCast_nonneg _)

/-- On a picture whose width is a word the first row of a region has a number that is one. -/
theorem top_lt (a : Area) (small : Screen.width * k < 2147483648) : a.top k < 2147483648 := by
  have rows := Int.mul_le_mul_of_nonneg_right (Int.ofNat_le.2 (Screen.rowOf_le a.destination)) (Int.natCast_nonneg k)
  change 240 * k < 2147483648 at small
  unfold top
  omega

theorem rows_lt (a : Area) (k : Nat) : a.rows k < 2147483648 := by
  unfold rows saturate32
  omega

/-- A fill that ends at the bottom of the picture is the loop over all rows of the region. -/
theorem fill_eq_fillRows (small : Screen.width * c.scale < 2147483648) :
    a.fill c = a.fillRows c 0 (a.firstEdges c.scale) (a.rows c.scale) := by
  have start := a.top_nonneg c.scale
  have top := a.top_lt small
  have count := a.rows_lt c.scale
  obtain ⟨n, split⟩ : ∃ n, a.rows c.scale = a.rowsAbove c.scale + n := Nat.exists_eq_add_of_le (Nat.min_le_left ..)
  rw [split]
  obtain ⟨e, rest⟩ := a.exists_fillRows_add c 0 (a.firstEdges c.scale) (a.rowsAbove c.scale) n
  rw [rest, fill, Nat.zero_add]
  rcases Nat.eq_zero_or_pos n with rfl | more
  · rfl
  · have bottom : (Screen.height * c.scale : Nat) ≤ a.top c.scale + a.rowsAbove c.scale := by
      unfold rowsAbove at split ⊢
      omega
    refine (fillRows_of_below ?_ ?_ e).symm
    · rwa [scale_fillRows, Canvas.height, scale_fillRows]
    · rw [scale_fillRows]
      omega

end DownhillJam.Area

@[simp]
theorem Canvas.scale_fillArea (c : Canvas) (a : DownhillJam.Area) : (a.fill c).scale = c.scale := a.scale_fillRows ..

end Redraw

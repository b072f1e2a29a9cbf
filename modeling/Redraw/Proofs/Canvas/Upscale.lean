import Mathlib.Logic.Basic
import Redraw.Proofs.Canvas.Blit

/-!
# Enlarged pictures

A canvas of native size is enlarged by showing each of its pixels as a block (`Canvas.Upscales`). Two canvases that are
related in this way stay related when the same logical pixels are set to the same colors on both
(`Canvas.Upscales.repaint`).
-/

namespace Redraw

/-- An output position lies on the picture exactly if the logical pixel of its block lies on the screen. -/
theorem Screen.contains_block_iff {k : Nat} {X Y : Int} (pos : 0 < k) :
    Screen.Contains 1 (X / k) (Y / k) ↔ Screen.Contains k X Y := by
  refine ⟨fun h => ?_, Canvas.block_contains pos⟩
  have unit := Int.natCast_pos.2 pos
  obtain ⟨left, right, top, bottom⟩ := h
  rw [Nat.mul_one] at right bottom
  exact ⟨(Int.ediv_nonneg_iff_of_pos unit).1 left, (Int.ediv_lt_iff_lt_mul unit).1 right,
    (Int.ediv_nonneg_iff_of_pos unit).1 top, (Int.ediv_lt_iff_lt_mul unit).1 bottom⟩

/-- The last column of a block lies on the picture, in the first row of the block, exactly if the pixel lies on the screen. -/
theorem Screen.contains_corner_iff {k : Nat} {i j : Int} (pos : 0 < k) :
    Screen.Contains k (k * i + k - 1) (k * j) ↔ Screen.Contains 1 i j := by
  have unit := Int.natCast_pos.2 pos
  have column : (k * i + k - 1) / (k : Int) = i := by
    rw [Int.add_sub_assoc, Int.mul_add_ediv_left _ _ (Int.ne_of_gt unit),
      Int.ediv_eq_zero_of_lt (by omega) (by omega), Int.add_zero]
  have row : k * j / (k : Int) = j := Int.mul_ediv_cancel_left j (Int.ne_of_gt unit)
  rw [← contains_block_iff pos, column, row]

/-- The first pixel of a block lies on the picture exactly if the logical pixel lies on the screen. -/
theorem Screen.contains_first_iff {k : Nat} {i j : Int} (pos : 0 < k) :
    Screen.Contains k (k * i) (k * j) ↔ Screen.Contains 1 i j := by
  have unit := Int.ne_of_gt (Int.natCast_pos.2 pos)
  rw [← contains_block_iff pos, Int.mul_ediv_cancel_left i unit, Int.mul_ediv_cancel_left j unit]

/-- A scaled bound is at or before the first pixel of a block exactly if the bound is at or before the logical pixel. -/
theorem scaled_le_first_iff {bound i : Int} {k : Nat} (pos : 0 < k) : bound * k ≤ k * i ↔ bound ≤ i := by
  rw [Int.mul_comm, Int.mul_le_mul_left (Int.natCast_pos.2 pos)]

theorem first_lt_scaled_iff {bound i : Int} {k : Nat} (pos : 0 < k) : k * i < bound * k ↔ i < bound := by
  rw [Int.mul_comm bound, Int.mul_lt_mul_left (Int.natCast_pos.2 pos)]

/-- A position that is scaled and rounded down lies at or before the last column of a block exactly if the position, rounded
down, lies at or before the pixel. -/
theorem scaled_ediv_le_last_iff {v unit i : Int} {k : Nat} (pos : 0 < k) (unit_pos : 0 < unit) :
    v * k / unit ≤ k * i + k - 1 ↔ v / unit ≤ i := by
  have scale := Int.natCast_pos.2 pos
  have next : k * i + k = (i + 1) * k := by rw [Int.add_mul, Int.one_mul, Int.mul_comm]
  rw [Int.le_sub_one_iff, next, Int.ediv_lt_iff_lt_mul unit_pos, Int.mul_right_comm, Int.mul_lt_mul_right scale,
    ← Int.ediv_lt_iff_lt_mul unit_pos, Int.lt_add_one_iff]

theorem last_lt_scaled_ediv_iff {v unit i : Int} {k : Nat} (pos : 0 < k) (unit_pos : 0 < unit) :
    k * i + k - 1 < v * k / unit ↔ i < v / unit := by
  rw [← Int.not_le, scaled_ediv_le_last_iff pos unit_pos, Int.not_le]

namespace Canvas

/-- The large canvas shows each pixel of the small one, which is of native size, as a block. -/
structure Upscales (large small : Canvas) : Prop where
  pos : 0 < large.scale
  native : small.scale = 1
  pixels : ∀ X Y, large.pixel? X Y = small.pixel? (X / large.scale) (Y / large.scale)

theorem upscales_blank {k : Nat} (pos : 0 < k) : Upscales (blank k) (blank 1) where
  pos := pos
  native := rfl
  pixels X Y := by
    rw [pixel?_blank, pixel?_blank]
    exact if_congr (Screen.contains_block_iff pos).symm rfl rfl

theorem Upscales.repaint {large large' small small' : Canvas} (h : Upscales large small) (color : Int → Int → UInt8)
    (mark : Int → Int → Prop) [∀ x y, Decidable (mark x y)] (scale : large'.scale = large.scale)
    (scale' : small'.scale = small.scale)
    (set : ∀ X Y, large'.pixel? X Y =
      if Screen.Contains large.scale X Y ∧ mark (X / large.scale) (Y / large.scale) then
        some (color (X / large.scale) (Y / large.scale))
      else large.pixel? X Y)
    (set' : ∀ x y, small'.pixel? x y =
      if Screen.Contains 1 x y ∧ mark x y then some (color x y) else small.pixel? x y) :
    Upscales large' small' where
  pos := scale ▸ h.pos
  native := scale'.trans h.native
  pixels X Y := by
    rw [set, scale, set', h.pixels]
    exact if_congr (and_congr (Screen.contains_block_iff h.pos).symm Iff.rfl) rfl rfl

theorem Upscales.recolor {large large' small small' : Canvas} (h : Upscales large small) (color : UInt8)
    (mark : Int → Int → Prop) [∀ x y, Decidable (mark x y)] (scale : large'.scale = large.scale)
    (scale' : small'.scale = small.scale)
    (set : ∀ X Y, large'.pixel? X Y =
      if Screen.Contains large.scale X Y ∧ mark (X / large.scale) (Y / large.scale) then some color else large.pixel? X Y)
    (set' : ∀ x y, small'.pixel? x y = if Screen.Contains 1 x y ∧ mark x y then some color else small.pixel? x y) :
    Upscales large' small' :=
  h.repaint (fun _ _ => color) mark scale scale' set set'

end Canvas

end Redraw

import Mathlib.Tactic.MkIffOfInductiveProp
import Redraw.Proofs.Sprite.Fixed

/-!
# Stretched sprites

An output pixel of a stretched sprite samples the texture as far along it as the pixel lies along the rectangle of the sprite.
Samples begin at the near ends of the texture and stop short of the far ones (`Redraw.onWay_interpolate`). The first pixel of
a block lies as far along the large rectangle as its logical pixel along the native one, so both sample the same texel, and a
sprite looks alike at every scale in the first pixels of the blocks (`StretchedSprite.samples_consistently`).
-/

namespace Redraw

/-! ## Steps along a texture -/

/-- The position is on the way from `start` to `stop`, but not at its end. A way of no length has only its start. -/
def OnWay (start stop w : Int) : Prop := start ≤ w ∧ w < stop ∨ stop < w ∧ w ≤ start ∨ start = stop ∧ w = start

instance (start stop w : Int) : Decidable (OnWay start stop w) :=
  inferInstanceAs (Decidable (start ≤ w ∧ w < stop ∨ stop < w ∧ w ≤ start ∨ start = stop ∧ w = start))

section Steps

variable {step steps : Int} (first : 0 ≤ step) (last : step < steps)

include first last

theorem mul_tdiv_steps_between {n : Int} (pos : 0 < n) :
    0 ≤ (step * n).tdiv steps ∧ (step * n).tdiv steps < n := by
  have way : 0 ≤ step * n := Int.mul_nonneg first (Int.le_of_lt pos)
  rw [Int.tdiv_eq_ediv_of_nonneg way]
  refine ⟨Int.ediv_nonneg way (by omega), Int.ediv_lt_of_lt_mul (by omega) ?_⟩
  rw [Int.mul_comm n]
  exact Int.mul_lt_mul_of_pos_right last pos

/-- Each of the steps, but for the last one, leads to a position short of the end. -/
theorem onWay_interpolate (start stop : Int) : OnWay start stop (interpolate start stop step steps) := by
  unfold OnWay interpolate
  rcases Int.lt_trichotomy start stop with up | rfl | down
  · have part := mul_tdiv_steps_between first last (n := stop - start) (by omega)
    omega
  · simp
  · -- a quotient that is rounded toward zero is that of the way back, with the other sign
    have back : step * (stop - start) = -(step * (start - stop)) := by rw [← Int.mul_neg, Int.neg_sub]
    have part := mul_tdiv_steps_between first last (n := start - stop) (by omega)
    rw [back, Int.neg_tdiv]
    omega

end Steps

/-- Steps of another unit lead to the same position. -/
theorem interpolate_mul {unit : Int} (pos : 0 < unit) (start stop step steps : Int) :
    interpolate start stop (unit * step) (unit * steps) = interpolate start stop step steps := by
  rw [interpolate, interpolate, Int.mul_assoc, Int.mul_tdiv_mul_of_pos _ _ pos]

/-! ## Covered pixels and their samples -/

namespace StretchedSprite

variable {s : StretchedSprite} {k : Nat} {X Y i j : Int}

/-- The rectangle of the sprite has an output pixel, wherever the picture ends. -/
@[mk_iff]
structure Covers (s : StretchedSprite) (k : Nat) (X Y : Int) : Prop where
  left : s.left * k ≤ X
  right : X < s.right * k
  top : s.top * k ≤ Y
  bottom : Y < s.bottom * k

instance (s : StretchedSprite) (k : Nat) (X Y : Int) : Decidable (s.Covers k X Y) := decidable_of_iff _ (covers_iff ..).symm

/-- The column of the texture that an output column samples. -/
def sampleColumn (s : StretchedSprite) (k : Nat) (X : Int) : Int :=
  interpolate s.u0 s.u1 (X - s.left * k) (s.right * k - s.left * k)

/-- The row of the texture that an output row samples. -/
def sampleRow (s : StretchedSprite) (k : Nat) (Y : Int) : Int :=
  interpolate s.v0 s.v1 (Y - s.top * k) (s.bottom * k - s.top * k)

/-- The texel that an output pixel samples. -/
def sampleAt (s : StretchedSprite) (view : View) (k : Nat) (X Y : Int) : UInt8 :=
  s.texel view (s.sampleColumn k X) (s.sampleRow k Y)

/-- The sprite covers an output pixel, and the texel that this samples is not transparent. -/
def Shows (s : StretchedSprite) (view : View) (k : Nat) (X Y : Int) : Prop := s.Covers k X Y ∧ s.sampleAt view k X Y ≠ 0

instance (s : StretchedSprite) (view : View) (k : Nat) (X Y : Int) : Decidable (s.Shows view k X Y) :=
  inferInstanceAs (Decidable (s.Covers k X Y ∧ s.sampleAt view k X Y ≠ 0))

theorem mem_positions : (X, Y) ∈ s.positions k ↔ s.Covers k X Y ∧ Screen.Contains k X Y := by
  unfold positions
  dsimp only
  split
  · rename_i empty
    simp only [Area.isEmpty, Bool.or_eq_true, decide_eq_true_eq] at empty
    simp only [area] at empty
    simp only [List.not_mem_nil, covers_iff, false_iff]
    omega
  · simp only [area, Area.rows, Area.columns, List.mem_flatMap, List.mem_map, mem_between, Prod.mk.injEq, covers_iff,
      Screen.Contains]
    constructor
    · rintro ⟨y, rows, x, columns, rfl, rfl⟩
      omega
    · intro all
      exact ⟨Y, by omega, X, by omega, rfl, rfl⟩

theorem Covers.sampleColumn_onWay (covers : s.Covers k X Y) : OnWay s.u0 s.u1 (s.sampleColumn k X) := by
  obtain ⟨left, right, -⟩ := covers
  exact onWay_interpolate (by omega) (by omega) ..

theorem Covers.sampleRow_onWay (covers : s.Covers k X Y) : OnWay s.v0 s.v1 (s.sampleRow k Y) := by
  obtain ⟨-, -, top, bottom⟩ := covers
  exact onWay_interpolate (by omega) (by omega) ..

end StretchedSprite

namespace Canvas

open StretchedSprite

/-! ## Drawing -/

theorem pixel?_drawSample (c : Canvas) (s : StretchedSprite) (view : View) (x y X Y : Int) :
    (c.drawSample s view x y).pixel? X Y =
      if Screen.Contains c.scale X Y ∧ (x = X ∧ y = Y) ∧ s.sampleAt view c.scale X Y ≠ 0 then
        some (s.sampleAt view c.scale X Y)
      else c.pixel? X Y := by
  have sample : s.sample view (s.area c.scale) x y = s.sampleAt view c.scale x y := rfl
  unfold drawSample
  dsimp only
  rw [sample]
  split
  · rename_i transparent
    rw [if_neg]
    rintro ⟨-, ⟨rfl, rfl⟩, shown⟩
    exact shown transparent
  · rename_i shown
    rw [pixel?_setPixel]
    by_cases here : x = X ∧ y = Y
    · obtain ⟨rfl, rfl⟩ := here
      simp [shown]
    · rw [if_neg fun all => here ⟨all.1.symm, all.2.1.symm⟩, if_neg fun all => here all.2.1]

/-- Drawing a sprite gives the pixels at which it shows a texel the color of that, and changes no other pixel. -/
theorem pixel?_drawStretchedSprite (c : Canvas) (s : StretchedSprite) (view : View) (X Y : Int) :
    (c.drawStretchedSprite s view).pixel? X Y =
      if Screen.Contains c.scale X Y ∧ s.Shows view c.scale X Y then some (s.sampleAt view c.scale X Y)
      else c.pixel? X Y := by
  have drawn : (c.drawStretchedSprite s view).pixel? X Y =
      if Screen.Contains c.scale X Y ∧ ∃ p ∈ s.positions c.scale,
          (p.1 = X ∧ p.2 = Y) ∧ s.sampleAt view c.scale X Y ≠ 0 then
        some (s.sampleAt view c.scale X Y)
      else c.pixel? X Y := by
    refine pixel?_foldl (s.positions c.scale) c fun d same p _ => ⟨d.scale_drawSample .., ?_⟩
    rw [pixel?_drawSample, same]
  rw [drawn]
  refine if_congr (and_congr_right fun inside => ?_) rfl rfl
  constructor
  · rintro ⟨⟨x, y⟩, mem, ⟨rfl, rfl⟩, shown⟩
    exact ⟨(mem_positions.1 mem).1, shown⟩
  · rintro ⟨covers, shown⟩
    exact ⟨(X, Y), mem_positions.2 ⟨covers, inside⟩, ⟨rfl, rfl⟩, shown⟩

/-- The large canvas shows each pixel of the small one, which is of native size, in the first pixel of a block. -/
structure Subsamples (large small : Canvas) : Prop where
  pos : 0 < large.scale
  native : small.scale = 1
  pixels : ∀ i j, Screen.Contains 1 i j → large.pixel? (large.scale * i) (large.scale * j) = small.pixel? i j

theorem subsamples_blank {k : Nat} (pos : 0 < k) : Subsamples (blank k) (blank 1) where
  pos := pos
  native := rfl
  pixels i j _ := by
    rw [pixel?_blank, pixel?_blank]
    exact if_congr (Screen.contains_first_iff pos) rfl rfl

end Canvas

namespace StretchedSprite

variable {s : StretchedSprite} {view : View} {k : Nat} {i j : Int}

/-! ## Blocks -/

section Blocks

variable (pos : 0 < k)

include pos

theorem covers_first_iff : s.Covers k (k * i) (k * j) ↔ s.Covers 1 i j := by
  rw [covers_iff, covers_iff, scaled_le_first_iff pos, first_lt_scaled_iff pos, scaled_le_first_iff pos,
    first_lt_scaled_iff pos, Int.natCast_one, Int.mul_one, Int.mul_one, Int.mul_one, Int.mul_one]

theorem sampleAt_first : s.sampleAt view k (k * i) (k * j) = s.sampleAt view 1 i j := by
  have unit := Int.natCast_pos.2 pos
  have way (a b : Int) : k * a - b * k = k * (a - b) := by rw [Int.mul_comm b, Int.mul_sub]
  have length (a b : Int) : a * k - b * k = k * (a - b) := by rw [Int.mul_comm a, way]
  rw [sampleAt, sampleAt, sampleColumn, sampleColumn, sampleRow, sampleRow, way, way, length, length,
    interpolate_mul unit, interpolate_mul unit, Int.natCast_one, Int.mul_one, Int.mul_one, Int.mul_one, Int.mul_one]

theorem shows_first_iff : s.Shows view k (k * i) (k * j) ↔ s.Shows view 1 i j := by
  rw [Shows, Shows, covers_first_iff pos, sampleAt_first pos]

end Blocks

end StretchedSprite

theorem Canvas.Subsamples.drawStretchedSprite {large small : Canvas} (h : Subsamples large small) (s : StretchedSprite)
    (view : View) : Subsamples (large.drawStretchedSprite s view) (small.drawStretchedSprite s view) where
  pos := by
    rw [scale_drawStretchedSprite]
    exact h.pos
  native := (scale_drawStretchedSprite ..).trans h.native
  pixels i j inside := by
    have shows : s.Shows view large.scale (large.scale * i) (large.scale * j) ↔ s.Shows view 1 i j :=
      StretchedSprite.shows_first_iff h.pos
    have sample : s.sampleAt view large.scale (large.scale * i) (large.scale * j) = s.sampleAt view 1 i j :=
      StretchedSprite.sampleAt_first h.pos
    rw [scale_drawStretchedSprite, pixel?_drawStretchedSprite, pixel?_drawStretchedSprite, h.native, h.pixels i j inside,
      sample]
    exact if_congr (and_congr (Screen.contains_first_iff h.pos) shows) rfl rfl

/-- **Stretched sprites scale.** Drawing a sprite on two pictures, one of which shows each pixel of the other, of native size,
in the first pixel of a block, gives two such pictures. At every scale the pixels of the rectangle get the texel that they
sample, unless that is zero, and all other pixels stay as they are. What is sampled lies on the way along the texture in both
directions, and never at its end. -/
theorem StretchedSprite.samples_consistently (s : StretchedSprite) (view : View) :
    (∀ large small : Canvas, Canvas.Subsamples large small →
      Canvas.Subsamples (large.drawStretchedSprite s view) (small.drawStretchedSprite s view)) ∧
      (∀ (c : Canvas) (X Y : Int),
        (c.drawStretchedSprite s view).pixel? X Y =
          if Screen.Contains c.scale X Y ∧ s.Covers c.scale X Y ∧ s.sampleAt view c.scale X Y ≠ 0 then
            some (s.texel view (s.sampleColumn c.scale X) (s.sampleRow c.scale Y))
          else c.pixel? X Y) ∧
      ∀ (k : Nat) (X Y : Int), s.Covers k X Y →
        OnWay s.u0 s.u1 (s.sampleColumn k X) ∧ OnWay s.v0 s.v1 (s.sampleRow k Y) :=
  ⟨fun _ _ h => h.drawStretchedSprite s view, fun c X Y => c.pixel?_drawStretchedSprite s view X Y,
    fun _ _ _ covers => ⟨covers.sampleColumn_onWay, covers.sampleRow_onWay⟩⟩

/-- A sprite that reaches past the left side of the screen and far past the right one, with the texture upside down. -/
theorem StretchedSprite.samples_consistently_extreme :
    let s : StretchedSprite := ⟨-2, 0, 0x7FFFFFFF, 2, -1, 1, 0x7FFFFFFF, -1, 0x08000000, 2, .nibbles, 3⟩
    let view := View.ofAddress (.withCartridge ⟨#[0x12, 0x34, 0x05, 0x67]⟩ true) 0x08000000
    Canvas.Subsamples (.blank 3) (.blank 1) ∧ s.Covers 3 4 4 ∧
      Canvas.Subsamples ((Canvas.blank 3).drawStretchedSprite s view) ((Canvas.blank 1).drawStretchedSprite s view) ∧
      OnWay s.u0 s.u1 (s.sampleColumn 3 4) ∧ OnWay s.v0 s.v1 (s.sampleRow 3 4) ∧
      ((Canvas.blank 3).drawStretchedSprite s view).pixel? 4 4 = some 0x33 := by
  intro s view
  have blank : Canvas.Subsamples (.blank 3) (.blank 1) := Canvas.subsamples_blank (by decide)
  have covers : s.Covers 3 4 4 := by decide
  obtain ⟨keeps, shows, samples⟩ := samples_consistently s view
  obtain ⟨column, row⟩ := samples 3 4 4 covers
  refine ⟨blank, covers, keeps _ _ blank, column, row, ?_⟩
  rw [shows]
  exact (if_pos (by decide)).trans (by decide)

end Redraw

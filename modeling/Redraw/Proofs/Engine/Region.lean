import Mathlib.Tactic.MkIffOfInductiveProp
import Mathlib.Tactic.Ring
import Redraw.Proofs.Canvas.Upscale
import Redraw.Proofs.Engine.Hooks

/-!
# Flat regions at every scale

The edges of a region are moved row by row and wrap around as words do. In the rows in which they fit into words a region
covers the columns between its edges, each at `start * k + delta * row`, and filling it sets these pixels
(`DownhillJam.Area.pixel?_fill`). The edges of a scaled row are those of the logical row times the scale, so the last column
of a block is filled in the first row of the block exactly if the logical pixel is (`DownhillJam.fills_consistently`).
-/

namespace Redraw

/-- What is a word times a scale is a word. -/
theorem IsWord.of_mul {x : Int} {k : Nat} (pos : 0 < k) (word : IsWord (x * k)) : IsWord x := by
  obtain ⟨lo, hi⟩ := word
  have unit : (1 : Int) ≤ k := by omega
  rcases Int.le_total 0 x with nonneg | nonpos
  · have := Int.mul_le_mul_of_nonneg_left unit nonneg
    exact ⟨by omega, by omega⟩
  · have := Int.mul_le_mul_of_nonpos_left nonpos unit
    exact ⟨by omega, by omega⟩

/-- Every picture that has a scale is that of a frame in some context. -/
theorem Context.exists_canvas (i : Frame) {d : Canvas} (pos : 0 < d.scale) :
    ∃ c : Context, c.frames.Sized ∧ c.frames.scale = d.scale ∧ c.frames.canvas i = .ok d := by
  have scale : d.scale = (Frames.blank d.scale).scale := (Nat.max_eq_left pos).symm
  have evolves := (Frames.sized_blank d.scale).setCanvas i scale
  exact ⟨{ Context.blank d.scale with frames := (Frames.blank d.scale).setCanvas i d }, evolves.sized,
    evolves.scale.trans scale.symm, Frames.canvas_setCanvas i scale⟩

namespace DownhillJam

namespace Area

variable {a : Area} {k : Nat} {row X Y i j : Int}

/-! ## Edges -/

/-- Where an edge is in an output row of its region, with fifteen fraction bits. -/
def edgeAt (start delta : Int) (k : Nat) (row : Int) : Int := start * k + delta * row

theorem edgesIn_left {y : Nat} (word : IsWord (edgeAt a.left a.leftDelta k y)) :
    (a.edgesIn k y).left = edgeAt a.left a.leftDelta k y := wrap32_eq_self word.1 word.2

theorem edgesIn_right {y : Nat} (word : IsWord (edgeAt a.right a.rightDelta k y)) :
    (a.edgesIn k y).right = edgeAt a.right a.rightDelta k y := wrap32_eq_self word.1 word.2

theorem edgeAt_mul (start delta row : Int) (k : Nat) : edgeAt start delta k (row * k) = edgeAt start delta 1 row * k := by
  unfold edgeAt
  push_cast
  ring

/-- A row of the region, counted from its first one, lies on a picture at the scale. -/
@[mk_iff]
structure Reaches (a : Area) (k : Nat) (row : Int) : Prop where
  first : 0 ≤ row
  last : row < a.height * k
  bottom : a.top k + row < (Screen.height * k : Nat)

/-- Both edges in a row are words. -/
structure FitsRow (a : Area) (k : Nat) (row : Int) : Prop where
  left : IsWord (edgeAt a.left a.leftDelta k row)
  right : IsWord (edgeAt a.right a.rightDelta k row)

/-- The edges of the region are words in all its rows that lie on a picture at the scale. -/
def Fits (a : Area) (k : Nat) : Prop := ∀ row, a.Reaches k row → a.FitsRow k row

theorem top_eq_mul (a : Area) (k : Nat) : a.top k = a.top 1 * k := by
  unfold top
  push_cast
  ring

theorem Reaches.mul (pos : 0 < k) (reaches : a.Reaches 1 row) : a.Reaches k (row * k) := by
  obtain ⟨first, last, bottom⟩ := reaches
  have unit := Int.natCast_pos.2 pos
  refine ⟨Int.mul_nonneg first (Int.le_of_lt unit), ?_, ?_⟩
  · rw [Int.natCast_one, Int.mul_one] at last
    exact Int.mul_lt_mul_of_pos_right last unit
  · rw [top_eq_mul, ← Int.add_mul, Int.natCast_mul]
    exact Int.mul_lt_mul_of_pos_right (by simpa using bottom) unit

/-- What fits at a scale fits at native size. -/
theorem Fits.native (pos : 0 < k) (fit : a.Fits k) : a.Fits 1 := fun row reaches => by
  obtain ⟨left, right⟩ := fit _ (reaches.mul pos)
  rw [edgeAt_mul] at left right
  exact ⟨left.of_mul pos, right.of_mul pos⟩

/-! ## Covered pixels -/

/-- The region covers an output pixel, wherever the picture ends. -/
@[mk_iff]
structure Covers (a : Area) (k : Nat) (X Y : Int) : Prop where
  top : a.top k ≤ Y
  bottom : Y < a.top k + a.height * k
  left : edgeAt a.left a.leftDelta k (Y - a.top k) / 0x8000 ≤ X
  right : X < edgeAt a.right a.rightDelta k (Y - a.top k) / 0x8000

instance (a : Area) (k : Nat) (X Y : Int) : Decidable (a.Covers k X Y) := decidable_of_iff _ (covers_iff ..).symm

/-- A row of the loop sets the pixels of the canvas between its edges, in the row that its number wraps around to. -/
theorem pixel?_fillRow (a : Area) (c : Canvas) (y : Nat) (e : Edges) (X Y : Int) :
    (a.fillRow c y e).pixel? X Y =
      if Screen.Contains c.scale X Y ∧ Y = wrap32 (a.top c.scale + y) ∧ e.left / 0x8000 ≤ X ∧ X < e.right / 0x8000 then
        some a.color
      else c.pixel? X Y := by
  unfold fillRow
  dsimp only
  split
  · rw [Canvas.pixel?_fillSpan]
    refine if_congr ⟨fun all => ⟨all.2.2.2, all.1, by omega, by omega⟩, fun all => ?_⟩ rfl rfl
    obtain ⟨inside, row, left, right⟩ := all
    exact ⟨row, max_le left inside.1, lt_min right inside.2.1, inside⟩
  · rename_i none
    refine (if_neg fun all => none ?_).symm
    obtain ⟨inside, -, left, right⟩ := all
    exact (max_le left inside.1).trans_lt (lt_min right inside.2.1)

/-- The rows that the loop fills on a picture are those of the region that lie on it. -/
theorem exists_row_iff (small : Screen.width * k < 2147483648) (inside : Screen.Contains k X Y) (P : Nat → Prop) :
    (∃ y < a.rows k, Y = wrap32 (a.top k + y) ∧ P y) ↔ a.Reaches k (Y - a.top k) ∧ P (Y - a.top k).toNat := by
  have start := a.top_nonneg k
  have top := a.top_lt small
  have count := a.rows_lt k
  obtain ⟨-, -, above, bottom⟩ := inside
  constructor
  · rintro ⟨y, counted, rfl, holds⟩
    have early : a.top k + y < (Screen.height * k : Nat) :=
      lt_of_not_ge fun below => not_mem_rows_of_wrap32 below (by omega) ⟨above, bottom⟩
    have still : wrap32 (a.top k + y) = a.top k + y := by
      have height : Screen.height * k ≤ Screen.width * k := Nat.mul_le_mul_right k (by decide)
      exact wrap32_eq_self (by omega) (by omega)
    rw [still, add_sub_cancel_left]
    refine ⟨⟨by omega, ?_, early⟩, holds⟩
    unfold rows saturate32 at counted
    omega
  · rintro ⟨⟨first, last, -⟩, holds⟩
    have height : Screen.height * k ≤ Screen.width * k := Nat.mul_le_mul_right k (by decide)
    refine ⟨(Y - a.top k).toNat, ?_, ?_, holds⟩
    · unfold rows saturate32
      omega
    · rw [wrap32_eq_self] <;> omega

/-- Filling a region sets the pixels of the canvas that it covers, and no other pixel. -/
theorem pixel?_fill {c : Canvas} (small : Screen.width * c.scale < 2147483648) (fit : a.Fits c.scale) (X Y : Int) :
    (a.fill c).pixel? X Y =
      if Screen.Contains c.scale X Y ∧ a.Covers c.scale X Y then some a.color else c.pixel? X Y := by
  have drawn : (a.fill c).pixel? X Y =
      if Screen.Contains c.scale X Y ∧ ∃ y ∈ List.range' 0 (a.rows c.scale), Y = wrap32 (a.top c.scale + y) ∧
          (a.edgesIn c.scale y).left / 0x8000 ≤ X ∧ X < (a.edgesIn c.scale y).right / 0x8000 then
        some a.color
      else c.pixel? X Y := by
    rw [fill_eq_fillRows small, firstEdges_eq, fillRows_edgesIn]
    refine Canvas.pixel?_foldl (List.range' 0 (a.rows c.scale)) c fun d same y _ => ⟨a.scale_fillRow .., ?_⟩
    rw [pixel?_fillRow, same]
  rw [drawn]
  refine if_congr (and_congr_right fun inside => ?_) rfl rfl
  simp only [List.mem_range'_1, Nat.zero_le, true_and, Nat.zero_add]
  rw [exists_row_iff small inside, covers_iff]
  constructor
  · rintro ⟨reaches, left, right⟩
    have row : ((Y - a.top c.scale).toNat : Int) = Y - a.top c.scale := Int.toNat_of_nonneg reaches.first
    have fits := fit _ reaches
    rw [← row] at fits
    rw [edgesIn_left fits.left, row] at left
    rw [edgesIn_right fits.right, row] at right
    exact ⟨sub_nonneg.1 reaches.first, sub_lt_iff_lt_add'.1 reaches.last, left, right⟩
  · rintro ⟨first, last, left, right⟩
    have reaches : a.Reaches c.scale (Y - a.top c.scale) :=
      ⟨sub_nonneg.2 first, sub_lt_iff_lt_add'.2 last, by rw [add_sub_cancel]; exact inside.2.2.2⟩
    have row : ((Y - a.top c.scale).toNat : Int) = Y - a.top c.scale := Int.toNat_of_nonneg reaches.first
    have fits := fit _ reaches
    rw [← row] at fits left right
    rw [← edgesIn_left fits.left] at left
    rw [← edgesIn_right fits.right] at right
    exact ⟨reaches, left, right⟩

/-- The last column of a block is covered, in the first row of the block, exactly if the pixel is. -/
theorem covers_corner_iff (pos : 0 < k) : a.Covers k (k * i + k - 1) (k * j) ↔ a.Covers 1 i j := by
  have row : k * j - a.top 1 * k = (j - a.top 1) * k := by ring
  have stop : a.top 1 * k + a.height * k = (a.top 1 + a.height) * k := by ring
  rw [covers_iff, covers_iff, top_eq_mul a k, row, edgeAt_mul, edgeAt_mul, stop, scaled_le_first_iff pos,
    first_lt_scaled_iff pos, scaled_ediv_le_last_iff pos (by decide), last_lt_scaled_ediv_iff pos (by decide),
    Int.natCast_one, Int.mul_one]

end Area

/-! ## Hits -/

variable {e : DownhillJam} {c : Context} {m : Machine} {i : Frame} {k : Nat} {X Y : Int}

/-- The frame that the first row of the region in the registers lies in. -/
def regionFrame (m : Machine) : Frame := if m.register 5 < 0x0600A000 then .zero else .one

theorem frameOf_destination (m : Machine) : frameOf (Area.ofRegisters m).destination = regionFrame m := rfl

/-- A hit on the address of the routine draws the region in the registers, and marks its frame as holding 3D content. -/
theorem hook_fill (active : e.active = true) {before : Canvas} (shown : c.frames.canvas (regionFrame m) = .ok before) :
    let i := regionFrame m
    e.hook c m fillAddress =
      .ok ({ c with frames := (c.frames.setActive i true).setCanvas i ((Area.ofRegisters m).fill before) }, []) := by
  intro i
  have canvas : (c.setActive i true).frames.canvas i = .ok before := (c.frames.canvas_setActive i i true).trans shown
  unfold hook
  rw [if_neg (by simp [active]), if_neg (by decide), if_neg (by decide), if_pos rfl]
  dsimp only
  rw [frameOf_destination, Context.draw, Frames.draw, canvas]
  rfl

/-- A hit gives an output pixel of a frame the color in the registers, whatever the frames at this scale showed before. -/
def Fills (m : Machine) (i : Frame) (k : Nat) (X Y : Int) : Prop :=
  ∀ (e : DownhillJam) (c : Context), e.active = true → c.frames.Sized → c.frames.scale = k →
    Returns (e.hook c m fillAddress) fun left =>
      ∃ d, left.1.frames.canvas i = .ok d ∧ d.pixel? X Y = some (m.register 4 >>> 8).toUInt8

section Hits

variable (small : Screen.width * k < 2147483648) (fit : (Area.ofRegisters m).Fits k)

include small fit

/-- What a hit leaves on the frame of the region: the pixels that the region covers have its color, and all others are those
from before. -/
theorem hook_fill_pixels (active : e.active = true) (sized : c.frames.Sized) (scale : c.frames.scale = k)
    {before : Canvas} (shown : c.frames.canvas (regionFrame m) = .ok before) :
    Returns (e.hook c m fillAddress) fun left =>
      left.1.frames.get (regionFrame m).other = c.frames.get (regionFrame m).other ∧
      ∃ after, left.1.frames.canvas (regionFrame m) = .ok after ∧ ∀ X Y,
        after.pixel? X Y =
          if Screen.Contains k X Y ∧ (Area.ofRegisters m).Covers k X Y then some (m.register 4 >>> 8).toUInt8
          else before.pixel? X Y := by
  have same : before.scale = c.frames.scale :=
    congrArg Canvas.scale (Except.ok.inj (shown.symm.trans (sized.canvas_eq _)))
  obtain rfl : before.scale = k := same.trans scale
  have after : ((Area.ofRegisters m).fill before).scale = (c.frames.setActive (regionFrame m) true).scale := by
    rw [Canvas.scale_fillArea, Frames.setActive, Frames.scale_modify, same]
  rw [hook_fill active shown]
  refine .pure ⟨?_, _, Frames.canvas_setCanvas (regionFrame m) after, Area.pixel?_fill small fit⟩
  rw [Frames.setCanvas, Frames.setActive, Frames.get_modify, Frames.get_modify]
  cases regionFrame m <;> rfl

theorem fills_iff (pos : 0 < k) :
    Fills m (regionFrame m) k X Y ↔ Screen.Contains k X Y ∧ (Area.ofRegisters m).Covers k X Y := by
  constructor
  · intro fills
    -- a frame that shows another color there tells a pixel that is filled from one that is not
    let before := (Canvas.blank k).setPixel X Y ((m.register 4 >>> 8).toUInt8 + 1)
    have same : before.scale = k := Canvas.scale_setPixel ..
    obtain ⟨c, sized, scale, shown⟩ := Context.exists_canvas (regionFrame m) (d := before) (by rwa [same])
    rw [same] at scale
    obtain ⟨left, hit, -, after, canvas, pixels⟩ := hook_fill_pixels (e := ⟨true⟩) small fit rfl sized scale shown
    obtain ⟨left', hit', after', canvas', color⟩ := fills ⟨true⟩ c rfl sized scale
    obtain rfl := Except.ok.inj (hit.symm.trans hit')
    obtain rfl := Except.ok.inj (canvas.symm.trans canvas')
    rw [pixels, Canvas.pixel?_setPixel, Canvas.pixel?_blank] at color
    split at color
    · assumption
    · split at color
      · simp at color
      · rename_i out
        rw [if_neg fun inside : Screen.Contains k X Y => out ⟨rfl, rfl, inside⟩] at color
        cases color
  · rintro covered e c active sized scale
    refine (hook_fill_pixels small fit active sized scale (sized.canvas_eq _)).mono fun left => ?_
    rintro ⟨-, after, canvas, pixels⟩
    exact ⟨after, canvas, (pixels X Y).trans (if_pos covered)⟩

end Hits

/-- **Regions scale.** Let the edges of the region in the registers be words in all rows that lie on a picture at a scale, and
let the width of the picture be a word, as it is for every picture of up to `2 ^ 61` pixels. Then a hit at this scale fills the
last column of a block, in the first row of the block, exactly if a hit at native size fills the pixel, and with the same color.
In each of its rows the region fills the columns of the picture between its edges. The other pixels of its frame stay as they
are, and so does the other frame. -/
theorem fills_consistently (m : Machine) {k : Nat} (pos : 0 < k) (small : Screen.width * k < 2147483648)
    (fit : (Area.ofRegisters m).Fits k) :
    let i : Frame := if m.register 5 < 0x0600A000 then .zero else .one
    let top : Nat := (m.register 5 - 0x06000000).toNat % 0xA000 / 240
    (∀ x y : Int, Fills m i k (k * x + k - 1) (k * y) ↔ Fills m i 1 x y) ∧
      (∀ X y : Int, Fills m i k X (top * k + y) ↔
        Screen.Contains k X (top * k + y) ∧ 0 ≤ y ∧ y < signed32 (m.register 6) * k ∧
          (signed32 (m.register 0) * k + signed32 (m.register 7) * y) / 0x8000 ≤ X ∧
          X < (signed32 (m.register 1) * k + signed32 (m.register 8) * y) / 0x8000) ∧
      ∀ (e : DownhillJam) (c : Context), e.active = true → c.frames.Sized → c.frames.scale = k →
        Returns (e.hook c m fillAddress) fun left =>
          left.1.frames.get i.other = c.frames.get i.other ∧
          ∃ before after, c.frames.canvas i = .ok before ∧ left.1.frames.canvas i = .ok after ∧
            ∀ X Y, ¬Fills m i k X Y → after.pixel? X Y = before.pixel? X Y := by
  intro i top
  have native : Screen.width * 1 < 2147483648 := by decide
  refine ⟨fun x y => ?_, fun X y => ?_, fun e c active sized scale => ?_⟩
  · change Fills m (regionFrame m) _ _ _ ↔ Fills m (regionFrame m) _ _ _
    rw [fills_iff small fit pos, fills_iff native (fit.native pos) Nat.zero_lt_one, Screen.contains_corner_iff pos,
      Area.covers_corner_iff pos]
  · have first : (Area.ofRegisters m).top k = top * k := by
      rw [Area.top, Screen.rowOf, UInt32.toNat_mod]
      rfl
    have start : (Area.ofRegisters m).top k ≤ top * k + y ↔ 0 ≤ y := by rw [first, le_add_iff_nonneg_right]
    have stop : top * k + y < (Area.ofRegisters m).top k + (Area.ofRegisters m).height * k ↔
        y < (Area.ofRegisters m).height * k := by rw [first, add_lt_add_iff_left]
    have row : top * k + y - (Area.ofRegisters m).top k = y := by rw [first, add_sub_cancel_left]
    refine (fills_iff small fit pos).trans ?_
    rw [Area.covers_iff, start, stop, row]
    dsimp only [Area.ofRegisters, Area.edgeAt]
    exact Iff.rfl
  · refine (hook_fill_pixels small fit active sized scale (sized.canvas_eq _)).mono fun left => ?_
    rintro ⟨other, after, canvas, pixels⟩
    refine ⟨other, _, after, sized.canvas_eq _, canvas, fun X Y out => ?_⟩
    exact (pixels X Y).trans (if_neg (mt (fills_iff small fit pos).2 out))

/-- A region whose edges move toward each other, in the second frame. -/
theorem fills_consistently_slope :
    let m := { Machine.withCartridge .empty true with
      registers := #v[0x10000, 0x30000, 0, 0, 0x0500, 0x0600A2D0, 2, 0x8000, 0xFFFF8000, 0, 0, 0, 0, 0, 0, 0] }
    0 < 3 ∧ Screen.width * 3 < 2147483648 ∧ (Area.ofRegisters m).Fits 3 ∧
      Fills m .one 3 8 9 ∧ Fills m .one 1 2 3 ∧ ¬Fills m .one 3 8 12 ∧ ¬Fills m .one 1 2 4 := by
  intro m
  have region : Area.ofRegisters m = ⟨0x0600A2D0, 2, 0x10000, 0x30000, 0x8000, -0x8000, 5⟩ := by decide
  have fit : (Area.ofRegisters m).Fits 3 := by
    rintro row ⟨first, last, -⟩
    rw [region] at last ⊢
    dsimp only at last
    constructor <;> dsimp only [IsWord, Area.edgeAt] <;> omega
  have small : Screen.width * 3 < 2147483648 := by decide
  obtain ⟨corners, columns, -⟩ := fills_consistently m (by decide) small fit
  have frame : (if m.register 5 < 0x0600A000 then Frame.zero else .one) = .one := by decide
  have top : (m.register 5 - 0x06000000).toNat % 0xA000 / 240 = 3 := by decide
  rw [frame] at corners columns
  rw [top] at columns
  have first : Fills m .one 3 8 9 := (columns 8 0).2 (by decide)
  have later : ¬Fills m .one 3 8 12 := fun fills => absurd ((columns 8 3).1 fills) (by decide)
  exact ⟨by decide, small, fit, first, (corners 2 3).1 first, later, mt (corners 2 4).2 later⟩

end DownhillJam

end Redraw

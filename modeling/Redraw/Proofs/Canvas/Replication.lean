import Redraw.Proofs.Sprite.Fixed

/-!
# Copying is replication

A canvas shows a bitmap in blocks if each output position has the color of the pixel in whose block it lies
(`Canvas.Replicates`). At one scale there is only one such canvas (`Canvas.Replicates.unique`), so all ways to write a bitmap
agree: copying it, filling the blocks of its pixels in any order, and writing its rows in place, where one output row is filled
block by block and then copied down (`Canvas.blit_replicates`).
-/

namespace Redraw.Canvas

/-- The pixel `(x, y)` of a bitmap as wide as the screen. -/
def bitmapPixel (bitmap : ByteArray) (x y : Int) : UInt8 := (Bytes.at? bitmap (Screen.width * y + x).toNat).getD 0

/-- Fills the blocks of the listed pixels of a bitmap. -/
def fillBlocks (bitmap : ByteArray) (order : List (Int × Int)) (c : Canvas) : Canvas :=
  order.foldl (fun d p => d.fillBlock p.1 p.2 (bitmapPixel bitmap p.1 p.2)) c

/-- Fills the first output row of the blocks of row `y` of a bitmap, block by block. -/
def fillLine (bitmap : ByteArray) (c : Canvas) (y : Nat) : Canvas :=
  let scale := c.scale
  (List.range Screen.width).foldl
    (fun d (x : Nat) => d.fillSpan (y * scale : Nat) (x * scale) ((x + 1) * scale) (bitmapPixel bitmap x y)) c

/-- Copies the output row `source` over the output row `target`. -/
def copyRow (c : Canvas) (source target : Nat) : Canvas :=
  c.setRow target (c.pixels.extract (source * c.width) (source * c.width + c.width))

/-- Copies the output row `first` over the `n` rows below it. -/
def copyDown (c : Canvas) (first n : Nat) : Canvas :=
  (List.range n).foldl (fun d row => d.copyRow first (first + (row + 1))) c

/-- Writes row `y` of a bitmap in place: the first row of its blocks, and then copies of that. -/
def blitRowInPlace (bitmap : ByteArray) (c : Canvas) (y : Nat) : Canvas :=
  (fillLine bitmap c y).copyDown (y * c.scale) (c.scale - 1)

/-! ## Pixels of a bitmap -/

variable {bitmap : ByteArray}

theorem bitmap_index {x y : Int} (left : 0 ≤ x) (top : 0 ≤ y) :
    (Screen.width * y + x).toNat = y.toNat * Screen.width + x.toNat := by
  unfold Screen.width
  omega

theorem at?_bitmap {x y : Int} (size : bitmap.size = Screen.area) (h : Screen.Contains 1 x y) :
    Bytes.at? bitmap (Screen.width * y + x).toNat = some (bitmapPixel bitmap x y) := by
  obtain ⟨v, found⟩ := exists_at?_bitmap size h
  rw [bitmapPixel, bitmap_index h.1 h.2.2.1, found, Option.getD_some]

/-! ## Bitmaps in blocks -/

/-- A canvas shows a bitmap, each pixel as a block. -/
def Replicates (bitmap : ByteArray) (c : Canvas) : Prop :=
  ∀ X Y, Screen.Contains c.scale X Y → c.pixel? X Y = some (bitmapPixel bitmap (X / c.scale) (Y / c.scale))

theorem Replicates.unique {c d : Canvas} (hc : Replicates bitmap c) (hd : Replicates bitmap d) (scale : c.scale = d.scale) :
    c = d := by
  refine ext_pixel? scale fun X Y => ?_
  by_cases inside : Screen.Contains c.scale X Y
  · rw [hc X Y inside, hd X Y (scale ▸ inside), scale]
  · rw [pixel?_eq_none inside, pixel?_eq_none (scale ▸ inside)]

theorem replicates_blit {c d : Canvas} (size : bitmap.size = Screen.area) (copied : c.blit bitmap = .ok d)
    (scale : d.scale = c.scale) : Replicates bitmap d := by
  intro X Y inside
  rw [scale] at inside ⊢
  have pos := Screen.scale_pos inside
  have block := block_contains pos inside
  rw [pixel?_blit copied size pos inside, ← bitmap_index block.1 block.2.2.1, at?_bitmap size block]

/-! ## Blocks in any order -/

@[simp]
theorem scale_fillBlocks (order : List (Int × Int)) (c : Canvas) : (fillBlocks bitmap order c).scale = c.scale :=
  foldl_scale (fun d _ => scale_fillBlock d ..) order c

/-- Filling the blocks of pixels of a bitmap, in any order, shows the listed pixels that lie on the screen. -/
theorem pixel?_fillBlocks (order : List (Int × Int)) (c : Canvas) (X Y : Int) :
    (fillBlocks bitmap order c).pixel? X Y =
      if Screen.Contains c.scale X Y ∧ (X / c.scale, Y / c.scale) ∈ order then
        some (bitmapPixel bitmap (X / c.scale) (Y / c.scale))
      else c.pixel? X Y := by
  have filled : (fillBlocks bitmap order c).pixel? X Y =
      if Screen.Contains c.scale X Y ∧ ∃ p ∈ order, X / c.scale = p.1 ∧ Y / c.scale = p.2 then
        some (bitmapPixel bitmap (X / c.scale) (Y / c.scale))
      else c.pixel? X Y := by
    refine pixel?_foldl order c fun d same p _ => ⟨scale_fillBlock .., ?_⟩
    rw [pixel?_fillBlock, same]
    refine ite_congr rfl (fun marked => ?_) fun _ => rfl
    rw [marked.2.1, marked.2.2]
  rw [filled]
  refine if_congr (and_congr_right fun _ => ⟨?_, fun mem => ⟨_, mem, rfl, rfl⟩⟩) rfl rfl
  rintro ⟨⟨x, y⟩, mem, column, row⟩
  rwa [column, row]

theorem replicates_fillBlocks {order : List (Int × Int)} (all : ∀ x y, Screen.Contains 1 x y → (x, y) ∈ order) (c : Canvas) :
    Replicates bitmap (fillBlocks bitmap order c) := by
  intro X Y inside
  rw [scale_fillBlocks] at inside ⊢
  rw [pixel?_fillBlocks, if_pos ⟨inside, all _ _ (block_contains (Screen.scale_pos inside) inside)⟩]

/-! ## Rows in place -/

@[simp]
theorem scale_fillLine (c : Canvas) (y : Nat) : (fillLine bitmap c y).scale = c.scale :=
  foldl_scale (fun d _ => scale_fillSpan d ..) _ c

@[simp]
theorem scale_copyRow (c : Canvas) (source target : Nat) : (c.copyRow source target).scale = c.scale := scale_setRow ..

@[simp]
theorem scale_copyDown (c : Canvas) (first n : Nat) : (c.copyDown first n).scale = c.scale :=
  foldl_scale (fun d _ => scale_copyRow d ..) _ c

@[simp]
theorem scale_blitRowInPlace (c : Canvas) (y : Nat) : (blitRowInPlace bitmap c y).scale = c.scale := by
  rw [blitRowInPlace, scale_copyDown, scale_fillLine]

variable {c : Canvas} {X Y : Int}

/-- The blocks of a line cover the first output row of a row of the bitmap, and no other row. -/
theorem pixel?_fillLine (y : Nat) (h : Screen.Contains c.scale X Y) :
    (fillLine bitmap c y).pixel? X Y =
      if Y = (y * c.scale : Nat) then some (bitmapPixel bitmap (X / c.scale) y) else c.pixel? X Y := by
  have filled : (fillLine bitmap c y).pixel? X Y =
      if Screen.Contains c.scale X Y ∧ ∃ x ∈ List.range Screen.width, Y = (y * c.scale : Nat) ∧ X / c.scale = x then
        some (bitmapPixel bitmap (X / c.scale) y)
      else c.pixel? X Y := by
    refine pixel?_foldl _ c fun d same x _ => ⟨scale_fillSpan .., ?_⟩
    rw [pixel?_fillSpan]
    refine ite_congr (propext ?_) (fun marked => ?_) fun _ => rfl
    · rw [ediv_eq_iff_block (Screen.scale_pos h), same]
      exact ⟨fun ⟨row, first, last, inside⟩ => ⟨inside, row, first, last⟩,
        fun ⟨inside, row, first, last⟩ => ⟨row, first, last, inside⟩⟩
    · rw [marked.2.2]
  obtain ⟨left, right, -⟩ := block_contains (Screen.scale_pos h) h
  have listed : (X / c.scale).toNat ∈ List.range Screen.width :=
    List.mem_range.2 ((Int.toNat_lt left).2 (by rwa [Nat.mul_one] at right))
  rw [filled]
  exact if_congr ⟨fun ⟨_, _, _, row, _⟩ => row, fun row => ⟨h, _, listed, row, (Int.toNat_of_nonneg left).symm⟩⟩ rfl rfl

theorem pixel?_copyRow {source target : Nat} (from_inside : source < c.height) (inside : target < c.height)
    (h : Screen.Contains c.scale X Y) :
    (c.copyRow source target).pixel? X Y = if Y = target then c.pixel? X source else c.pixel? X Y := by
  have fits : (source + 1) * c.width ≤ c.pixels.size := row_mul_le_size from_inside
  have column : X.toNat < c.width := (Int.toNat_lt h.1).2 h.2.1
  have source_contains : Screen.Contains c.scale X source :=
    ⟨h.1, h.2.1, Int.natCast_nonneg source, Int.ofNat_lt.2 from_inside⟩
  rw [Nat.succ_mul] at fits
  have copied : min (source * c.width + c.width) c.pixels.size - source * c.width = c.width := by omega
  rw [copyRow, pixel?_setRow (by rw [ByteArray.size_extract, copied]) inside h, Bytes.at?_extract, copied, if_pos column,
    pixel?_of_contains source_contains, Int.toNat_natCast]

theorem pixel?_copyDown {first n : Nat} (inside : first + n < c.height) (h : Screen.Contains c.scale X Y) :
    (c.copyDown first n).pixel? X Y = if first ≤ Y ∧ Y ≤ first + n then c.pixel? X first else c.pixel? X Y := by
  induction n generalizing Y with
  | zero =>
    by_cases row : Y = first
    · rw [row, ite_self]
      rfl
    · rw [if_neg (by omega)]
      rfl
  | succ n ih =>
    have scale := c.scale_copyDown first n
    have same : (c.copyDown first n).height = c.height := congrArg (Screen.height * ·) scale
    have source : Screen.Contains c.scale X first :=
      ⟨h.1, h.2.1, Int.natCast_nonneg first, Int.ofNat_lt.2 (show first < c.height by omega)⟩
    have last : c.copyDown first (n + 1) = (c.copyDown first n).copyRow first (first + (n + 1)) := by
      rw [copyDown, List.range_succ, List.foldl_append]
      rfl
    -- the copies so far did not write their source, so the next one reads what they read
    rw [last, pixel?_copyRow (by omega) (by omega) (by rwa [scale]), ih (by omega) source, ih (by omega) h]
    grind

theorem pixel?_blitRowInPlace {y : Nat} (inside : y < Screen.height) (h : Screen.Contains c.scale X Y) :
    (blitRowInPlace bitmap c y).pixel? X Y =
      if Y / c.scale = y then some (bitmapPixel bitmap (X / c.scale) y) else c.pixel? X Y := by
  have pos := Screen.scale_pos h
  have rows := block_rows_le_height (c := c) inside
  have block : (y * c.scale : Nat) ≤ Y ∧ Y ≤ (y * c.scale : Nat) + (c.scale - 1 : Nat) ↔ Y / c.scale = y := by
    rw [Int.ediv_eq_iff_of_pos (Int.natCast_pos.2 pos), Int.natCast_mul]
    omega
  have first : Screen.Contains c.scale X (y * c.scale : Nat) :=
    ⟨h.1, h.2.1, Int.natCast_nonneg _, Int.ofNat_lt.2 (show y * c.scale < c.height by omega)⟩
  have same : (fillLine bitmap c y).height = c.height := congrArg (Screen.height * ·) (scale_fillLine c y)
  rw [blitRowInPlace, pixel?_copyDown (by omega) (by rwa [scale_fillLine]), pixel?_fillLine y first, if_pos rfl,
    pixel?_fillLine y h]
  simp only [block]
  -- the first row, which the copies were made of, is one of the rows of the blocks
  refine ite_congr rfl (fun _ => rfl) fun below => if_neg fun row => below (block.1 ?_)
  omega

/-! ## Rows one after another -/

/-- Writing all rows of a bitmap shows it, if writing one row fills the rows of its blocks. -/
theorem replicates_rows {write : Canvas → Nat → Canvas} (c : Canvas) (scale : ∀ d row, (write d row).scale = d.scale)
    (step : ∀ (d : Canvas) (row : Nat) (X Y : Int), row < Screen.height → Screen.Contains d.scale X Y →
      (write d row).pixel? X Y =
        if Y / d.scale = row then some (bitmapPixel bitmap (X / d.scale) row) else d.pixel? X Y) :
    Replicates bitmap ((List.range Screen.height).foldl write c) := by
  intro X Y inside
  rw [foldl_scale scale] at inside ⊢
  obtain ⟨-, -, top, bottom⟩ := block_contains (Screen.scale_pos inside) inside
  have written : ((List.range Screen.height).foldl write c).pixel? X Y =
      if Screen.Contains c.scale X Y ∧ ∃ row ∈ List.range Screen.height, Y / c.scale = (row : Int) then
        some (bitmapPixel bitmap (X / c.scale) (Y / c.scale))
      else c.pixel? X Y := by
    refine pixel?_foldl _ c fun d same row mem => ⟨scale d row, ?_⟩
    rw [step d row X Y (List.mem_range.1 mem) (same ▸ inside), same]
    refine ite_congr (propext (and_iff_right inside).symm) (fun here => ?_) fun _ => rfl
    rw [here.2]
  have listed : (Y / c.scale).toNat ∈ List.range Screen.height :=
    List.mem_range.2 ((Int.toNat_lt top).2 (by rwa [Nat.mul_one] at bottom))
  rw [written, if_pos ⟨inside, _, listed, (Int.toNat_of_nonneg top).symm⟩]

theorem replicates_foldl_blitRow (c : Canvas) : Replicates bitmap ((List.range Screen.height).foldl (blitRow bitmap) c) := by
  refine replicates_rows c (scale_blitRow bitmap) fun d row X Y inside h => ?_
  have left : 0 ≤ X / (d.scale : Int) := (block_contains (Screen.scale_pos h) h).1
  rw [pixel?_blitRow bitmap (Screen.scale_pos h) inside h, bitmapPixel, bitmap_index left (Int.natCast_nonneg row),
    Int.toNat_natCast]

theorem replicates_foldl_blitRowInPlace (c : Canvas) :
    Replicates bitmap ((List.range Screen.height).foldl (blitRowInPlace bitmap) c) :=
  replicates_rows c scale_blitRowInPlace fun _ _ _ _ inside h => pixel?_blitRowInPlace inside h

/-- **Copying is replication.** Whatever a canvas of some scale shows, a bitmap of the size of the screen is copied to it, and
then each output position shows the pixel of the bitmap in whose block it lies. Filling the block of each pixel, in any order,
gives the same canvas. Writing the rows one after another, each from a line or in place, gives it as well, also at native size,
where the copy takes the bitmap as the picture. -/
theorem blit_replicates (pos : 0 < c.scale) (size : bitmap.size = Screen.area) :
    ∃ d, c.blit bitmap = .ok d ∧ d.scale = c.scale ∧
      (∀ X Y : Int, Screen.Contains c.scale X Y →
        d.pixel? X Y = Bytes.at? bitmap (Screen.width * (Y / c.scale) + X / c.scale).toNat) ∧
      (∀ order : List (Int × Int), (∀ x y, Screen.Contains 1 x y → (x, y) ∈ order) → fillBlocks bitmap order c = d) ∧
      (List.range Screen.height).foldl (blitRow bitmap) c = d ∧
      (List.range Screen.height).foldl (blitRowInPlace bitmap) c = d := by
  obtain ⟨d, copied, scale⟩ := blit_of_size pos size
  have shows := replicates_blit size copied scale
  refine ⟨d, copied, scale, fun X Y inside => ?_, fun order all => ?_, ?_, ?_⟩
  · rw [at?_bitmap size (block_contains pos inside), shows X Y (scale ▸ inside), scale]
  · exact (replicates_fillBlocks all c).unique shows ((scale_fillBlocks order c).trans scale.symm)
  · exact (replicates_foldl_blitRow c).unique shows ((foldl_scale (scale_blitRow bitmap) _ c).trans scale.symm)
  · exact (replicates_foldl_blitRowInPlace c).unique shows ((foldl_scale scale_blitRowInPlace _ c).trans scale.symm)

/-- One pixel of a bitmap, copied at scale two over a canvas that is not blank. -/
theorem blit_replicates_pixel :
    let c := (Canvas.blank 2).setPixel 4 2 9
    let bitmap := Bytes.put (Bytes.zeros Screen.area) 241 7
    0 < c.scale ∧ bitmap.size = Screen.area ∧
      ∃ d, c.blit bitmap = .ok d ∧ d.pixel? 3 2 = some 7 ∧ d.pixel? 4 2 = some 0 := by
  intro c bitmap
  have double : c.scale = 2 := scale_setPixel ..
  have pos : 0 < c.scale := by
    rw [double]
    decide
  have size : bitmap.size = Screen.area := (Bytes.size_put ..).trans (Bytes.size_zeros _)
  obtain ⟨d, copied, -, pixels, -⟩ := blit_replicates pos size
  refine ⟨pos, size, d, copied, ?_, ?_⟩
  · rw [pixels 3 2 (by rw [double]; decide), double, Bytes.at?_put, Bytes.size_zeros, if_pos (by decide)]
  · rw [pixels 4 2 (by rw [double]; decide), double, Bytes.at?_put, Bytes.size_zeros, if_neg (by decide), Bytes.at?_zeros,
      if_pos (by decide)]

end Redraw.Canvas

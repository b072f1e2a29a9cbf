import Redraw.Proofs.Canvas.Scale

/-!
# Copied bitmaps

A bitmap is copied to a canvas row by row: every pixel is repeated along a line, and the line is stored in all rows of its
blocks. So a canvas shows the pixel of the bitmap whose block a position lies in (`Canvas.pixel?_blit`).
-/

namespace Redraw.Canvas

/-! ## Lines -/

@[simp]
theorem size_appendCopies (b : ByteArray) (v : UInt8) (n : Nat) : (appendCopies b v n).size = b.size + n := by
  induction n generalizing b with
  | zero => rfl
  | succ n ih =>
    rw [appendCopies, ih, ByteArray.size_push]
    omega

theorem at?_appendCopies (b : ByteArray) (v : UInt8) (n j : Nat) :
    Bytes.at? (appendCopies b v n) j = if b.size ≤ j ∧ j < b.size + n then some v else Bytes.at? b j := by
  induction n generalizing b with
  | zero =>
    rw [if_neg (by omega)]
    rfl
  | succ n ih =>
    rw [appendCopies, ih, Bytes.at?_push, ByteArray.size_push]
    grind

/-- The first `n` pixels of a row of a bitmap, every one repeated. -/
def stretched (bitmap : ByteArray) (scale y n : Nat) : ByteArray :=
  (List.range n).foldl
    (fun line x => appendCopies line ((Bytes.at? bitmap (y * Screen.width + x)).getD 0) scale)
    (ByteArray.emptyWithCapacity (Screen.width * scale))

theorem stretched_succ (bitmap : ByteArray) (scale y n : Nat) :
    stretched bitmap scale y (n + 1) =
      appendCopies (stretched bitmap scale y n) ((Bytes.at? bitmap (y * Screen.width + n)).getD 0) scale := by
  rw [stretched, List.range_succ, List.foldl_append]
  rfl

theorem size_stretched (bitmap : ByteArray) (scale y n : Nat) : (stretched bitmap scale y n).size = n * scale := by
  induction n with
  | zero => exact (Nat.zero_mul scale).symm
  | succ n ih => rw [stretched_succ, size_appendCopies, ih, Nat.succ_mul]

theorem at?_stretched (bitmap : ByteArray) (scale y : Nat) {n i : Nat} (lt : i < n * scale) :
    Bytes.at? (stretched bitmap scale y n) i = some ((Bytes.at? bitmap (y * Screen.width + i / scale)).getD 0) := by
  induction n with
  | zero => omega
  | succ n ih =>
    rw [Nat.succ_mul] at lt
    rw [stretched_succ, at?_appendCopies, size_stretched]
    by_cases last : n * scale ≤ i
    · have block : i / scale = n := Nat.div_eq_of_lt_le last (by rwa [Nat.succ_mul])
      rw [if_pos ⟨last, lt⟩, block]
    · rw [if_neg fun both => last both.1, ih (Nat.lt_of_not_le last)]

theorem size_stretchRow (bitmap : ByteArray) (scale y : Nat) : (stretchRow bitmap scale y).size = Screen.width * scale :=
  size_stretched ..

theorem at?_stretchRow (bitmap : ByteArray) {scale i : Nat} (y : Nat) (lt : i < Screen.width * scale) :
    Bytes.at? (stretchRow bitmap scale y) i = some ((Bytes.at? bitmap (y * Screen.width + i / scale)).getD 0) :=
  at?_stretched bitmap scale y lt

/-! ## Rows -/

variable {c : Canvas} {x y : Int}

/-- A position lies between the borders of a block exactly if that is the block of the position. -/
theorem ediv_eq_iff_block {k : Nat} (pos : 0 < k) : x / k = y ↔ y * k ≤ x ∧ x < (y + 1) * k := by
  rw [Int.ediv_eq_iff_of_pos (Int.natCast_pos.2 pos), Int.add_mul, Int.one_mul]

theorem pixel?_setRow {row : Nat} {line : ByteArray} (width : line.size = c.width) (inside : row < c.height)
    (h : Screen.Contains c.scale x y) :
    (c.setRow row line).pixel? x y = if y = row then Bytes.at? line x.toNat else c.pixel? x y := by
  have fits : (row + 1) * c.width ≤ c.pixels.size := row_mul_le_size inside
  have column : x.toNat < c.width := (Int.toNat_lt h.1).2 h.2.1
  have cell := @cell_mem_span c.width 0 c.width x.toNat row y.toNat (Nat.le_refl _) column
  have top := h.2.2.1
  rw [Nat.succ_mul] at fits
  rw [pixel?_of_contains (c := c.setRow row line) h, pixel?_of_contains h]
  change Bytes.at? (Bytes.store c.pixels (row * c.width) line) (y.toNat * c.width + x.toNat) = _
  rw [Bytes.at?_store, width]
  by_cases same : y = row
  · have index : y.toNat * c.width + x.toNat - row * c.width = x.toNat := by
      rw [same, Int.toNat_natCast, Nat.add_sub_cancel_left]
    rw [if_pos same, if_pos (by omega), index]
  · rw [if_neg same, if_neg (by omega)]

/-- Storing a line in the first `n` rows of a block. -/
theorem pixel?_foldl_setRow {line : ByteArray} {first n : Nat} (width : line.size = c.width)
    (inside : first + n ≤ c.height) (h : Screen.Contains c.scale x y) :
    ((List.range n).foldl (fun c row => c.setRow (first + row) line) c).pixel? x y =
      if first ≤ y ∧ y < first + n then Bytes.at? line x.toNat else c.pixel? x y := by
  induction n with
  | zero => rw [if_neg (by omega)]; rfl
  | succ n ih =>
    have scale := foldl_scale (fun c row => c.scale_setRow (first + row) line) (List.range n) c
    rw [List.range_succ, List.foldl_append, List.foldl_cons, List.foldl_nil,
      pixel?_setRow (width.trans (congrArg (Screen.width * ·) scale.symm))
        (show first + n < _ from Nat.lt_of_lt_of_eq inside (congrArg (Screen.height * ·) scale.symm)) (by rwa [scale]),
      ih (by omega)]
    grind

/-- A row of a bitmap fills the rows of its blocks. -/
theorem pixel?_blitRow (bitmap : ByteArray) {row : Nat} (pos : 0 < c.scale) (inside : row < Screen.height)
    (h : Screen.Contains c.scale x y) :
    (blitRow bitmap c row).pixel? x y =
      if y / c.scale = row then some ((Bytes.at? bitmap (row * Screen.width + (x / c.scale).toNat)).getD 0)
      else c.pixel? x y := by
  have column : x.toNat < Screen.width * c.scale := (Int.toNat_lt h.1).2 h.2.1
  have block : (row * c.scale : Nat) ≤ y ∧ y < (row * c.scale : Nat) + c.scale ↔ y / c.scale = row := by
    rw [Int.ediv_eq_iff_of_pos (Int.natCast_pos.2 pos), Int.natCast_mul]
  have cell : (x / c.scale).toNat = x.toNat / c.scale := by
    rw [← Int.toNat_of_nonneg h.1, ← Int.natCast_ediv, Int.toNat_natCast, Int.toNat_natCast]
  rw [blitRow, pixel?_foldl_setRow (size_stretchRow ..) (block_rows_le_height inside) h, at?_stretchRow bitmap row column, cell]
  simp only [block]

/-- The first `n` rows of a bitmap fill the rows of their blocks. -/
theorem pixel?_foldl_blitRow (bitmap : ByteArray) {n : Nat} (pos : 0 < c.scale) (inside : n ≤ Screen.height)
    (h : Screen.Contains c.scale x y) :
    ((List.range n).foldl (blitRow bitmap) c).pixel? x y =
      if y / c.scale < n then
        some ((Bytes.at? bitmap ((y / c.scale).toNat * Screen.width + (x / c.scale).toNat)).getD 0)
      else c.pixel? x y := by
  have top : 0 ≤ y / c.scale := Int.ediv_nonneg h.2.2.1 (Int.natCast_nonneg _)
  induction n with
  | zero => rw [if_neg (by omega)]; rfl
  | succ n ih =>
    have scale := foldl_scale (scale_blitRow bitmap) (List.range n) c
    rw [List.range_succ, List.foldl_append, List.foldl_cons, List.foldl_nil,
      pixel?_blitRow bitmap (by rwa [scale]) inside (by rwa [scale]), scale, ih (by omega)]
    grind

/-- The block of an output position is a logical pixel of the screen. -/
theorem block_contains {scale : Nat} (pos : 0 < scale) (h : Screen.Contains scale x y) :
    Screen.Contains 1 (x / scale) (y / scale) := by
  have unit := Int.natCast_pos.2 pos
  refine ⟨Int.ediv_nonneg h.1 (Int.le_of_lt unit), ?_, Int.ediv_nonneg h.2.2.1 (Int.le_of_lt unit), ?_⟩
  · exact Int.ediv_lt_of_lt_mul unit h.2.1
  · exact Int.ediv_lt_of_lt_mul unit h.2.2.2

/-- A bitmap of the size of the screen has a pixel at each position of the screen. -/
theorem exists_at?_bitmap {bitmap : ByteArray} (size : bitmap.size = Screen.area) (h : Screen.Contains 1 x y) :
    ∃ v, Bytes.at? bitmap (y.toNat * Screen.width + x.toNat) = some v := by
  rw [← Option.ne_none_iff_exists', Ne, Bytes.at?_eq_none_iff, size, Nat.not_le]
  exact Screen.index?_lt (Screen.index?_eq_some h)

/-- A copied bitmap shows the pixel whose block a position lies in. -/
theorem pixel?_blit {d : Canvas} {bitmap : ByteArray} (copied : c.blit bitmap = .ok d) (size : bitmap.size = Screen.area)
    (pos : 0 < c.scale) (h : Screen.Contains c.scale x y) :
    d.pixel? x y = Bytes.at? bitmap ((y / c.scale).toNat * Screen.width + (x / c.scale).toNat) := by
  unfold blit at copied
  by_cases one : c.scale = 1
  · have fits : bitmap.size = c.pixels.size := by
      rw [size, c.size_eq, one]
      rfl
    rw [if_pos one, dif_pos fits] at copied
    rw [← Except.ok.inj copied, pixel?_of_contains (c := ⟨c.scale, bitmap, _⟩) h]
    change Bytes.at? bitmap (y.toNat * (Screen.width * c.scale) + x.toNat) = _
    rw [one, Int.natCast_one, Int.ediv_one, Int.ediv_one, Nat.mul_one]
  · have rows : bitmap.size / Screen.width = Screen.height := by
      rw [size]
      rfl
    have block := block_contains pos h
    obtain ⟨v, found⟩ := exists_at?_bitmap size block
    rw [if_neg one, rows, if_neg (Nat.lt_irrefl _), if_neg fun zero => Nat.ne_of_gt pos zero.1] at copied
    rw [← Except.ok.inj copied, pixel?_foldl_blitRow bitmap pos (Nat.le_refl _) h, if_pos (by simpa using block.2.2.2)]
    rw [found, Option.getD_some]

end Redraw.Canvas

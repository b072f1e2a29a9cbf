import Redraw.Proofs.Canvas.Scale
import Redraw.Proofs.Checked.Access

/-!
# Checked drawing on a canvas

Pixels are found by an index that lies in the buffer, runs by a slice of one row, and a bitmap is copied row by row. On a
canvas whose dimensions fit the numbers of 32 bits that columns are clamped with (`Fits`), none of this can fail.
-/

namespace Redraw.Checked

/-- A picture at a scale has pixels, and its dimensions are numbers of 32 bits. -/
def Fits (scale : Nat) : Prop := 0 < scale ∧ Screen.width * scale < 2147483648

theorem Fits.width_lt {c : Canvas} (fits : Fits c.scale) : c.width < 2147483648 := fits.2

/-- A loop of drawing steps, none of which changes the scale. -/
theorem foldlM_canvas {α : Type} {f : Canvas → α → Checked Canvas} {g : Canvas → α → Canvas} {as : List α} {c : Canvas}
    (scale : ∀ d a, (g d a).scale = d.scale) (step : ∀ d, d.scale = c.scale → ∀ a ∈ as, f d a = .ok (g d a)) :
    as.foldlM f c = .ok (as.foldl g c) :=
  foldlM_eq (fun d => d.scale = c.scale) step (fun d same a _ => (scale d a).trans same) rfl

/-! ## Pixels -/

def pixel? (c : Canvas) (x y : Int) : Checked (Option UInt8) :=
  match Screen.index? c.scale x y with
  | some i => do return some (← get c.pixels i)
  | none => return none

def setPixel (c : Canvas) (x y : Int) (v : UInt8) : Checked Canvas := do
  if let some i := Screen.index? c.scale x y then demand (i < c.pixels.size) (.index i c.pixels.size)
  return c.setPixel x y v

theorem index_lt {c : Canvas} {x y : Int} {i : Nat} (found : Screen.index? c.scale x y = some i) : i < c.pixels.size :=
  c.size_eq ▸ Screen.index?_lt found

theorem pixel?_eq (c : Canvas) (x y : Int) : pixel? c x y = .ok (c.pixel? x y) := by
  unfold pixel? Canvas.pixel?
  cases found : Screen.index? c.scale x y with
  | none => rfl
  | some i =>
    have lt := index_lt found
    simp only [get, Bytes.at?, dif_pos lt, Option.bind_some]
    rfl

theorem setPixel_eq (c : Canvas) (x y : Int) (v : UInt8) : setPixel c x y v = .ok (c.setPixel x y v) := by
  unfold setPixel
  cases found : Screen.index? c.scale x y with
  | none => rfl
  | some i => exact congrArg (· >>= fun _ => Except.ok (c.setPixel x y v)) (demand_of (index_lt found) _)

/-! ## Spans -/

def border (c : Canvas) (x : Int) : Checked Nat := do return (← clampTo x 0 (wrap32 c.width)).toNat

/-- The columns of a row that a run covers, as a slice of the pixels of the row. -/
def span? (c : Canvas) (y left right : Int) : Checked (Option (Nat × Nat)) := do
  if 0 ≤ y ∧ y < c.height then
    let first ← border c left
    let last ← border c right
    if first < last then
      slice c.pixels (y.toNat * c.width + first) (y.toNat * c.width + last)
      return some (first, last)
    else return none
  else return none

def fillSpan (c : Canvas) (y left right : Int) (v : UInt8) : Checked Canvas := do
  let _ ← span? c y left right
  return c.fillSpan y left right v

theorem border_eq {c : Canvas} (fits : Fits c.scale) (x : Int) : border c x = .ok (c.border x) := by
  have small := fits.width_lt
  have width : wrap32 c.width = c.width := wrap32_eq_self (by omega) (by omega)
  rw [border, width, clampTo, if_neg (by omega)]
  rfl

theorem span?_eq {c : Canvas} (fits : Fits c.scale) (y left right : Int) :
    span? c y left right = .ok (c.span? y left right) := by
  unfold span? Canvas.span?
  by_cases row : 0 ≤ y ∧ y < c.height
  · rw [if_pos row, border_eq fits, ok_bind, border_eq fits, ok_bind]
    by_cases columns : c.border left < c.border right
    · have stop : y.toNat * c.width + c.border right ≤ c.pixels.size :=
        calc y.toNat * c.width + c.border right ≤ y.toNat * c.width + c.width :=
              Nat.add_le_add_left (c.border_le_width right) _
          _ = (y.toNat + 1) * c.width := (Nat.succ_mul _ _).symm
          _ ≤ c.pixels.size := Canvas.row_mul_le_size (by omega)
      rw [if_pos columns, if_pos ⟨row.1, row.2, columns⟩, slice, demand_of ⟨by omega, stop⟩]
      rfl
    · rw [if_neg columns, if_neg fun all => columns all.2.2]
      rfl
  · rw [if_neg row, if_neg fun all => row ⟨all.1, all.2.1⟩]
    rfl

theorem fillSpan_eq {c : Canvas} (fits : Fits c.scale) (y left right : Int) (v : UInt8) :
    fillSpan c y left right v = .ok (c.fillSpan y left right v) := by
  rw [fillSpan, span?_eq fits]
  rfl

/-! ## Blocks and bitmaps -/

def fillBlock (c : Canvas) (x y : Int) (v : UInt8) : Checked Canvas :=
  let scale := c.scale
  if 0 ≤ x ∧ x < Screen.width ∧ 0 ≤ y ∧ y < Screen.height then
    (between 0 scale).foldlM (fun c row => fillSpan c (y * scale + row) (x * scale) ((x + 1) * scale) v) c
  else return c

theorem fillBlock_eq {c : Canvas} (fits : Fits c.scale) (x y : Int) (v : UInt8) :
    fillBlock c x y v = .ok (c.fillBlock x y v) := by
  unfold fillBlock Canvas.fillBlock
  dsimp only
  split
  · exact foldlM_canvas (fun d _ => d.scale_fillSpan ..) fun d same row _ => fillSpan_eq (same ▸ fits) ..
  · rfl

/-- One row of a bitmap: the first output row is a slice that is cut into blocks, and it is copied to the other ones. -/
def blitRow (bitmap : ByteArray) (c : Canvas) (y : Nat) : Checked Canvas := do
  let first := y * c.scale * c.width
  slice c.pixels first (first + c.width)
  demand (c.scale ≠ 0) .divisor
  let _ ← (List.range c.scale).mapM fun row => slice c.pixels (first + row * c.width) (first + row * c.width + c.width)
  return c.blitRow bitmap y

def blit (c : Canvas) (bitmap : ByteArray) : Checked Canvas :=
  if c.scale = 1 then do
    demand (bitmap.size = c.pixels.size) (.copy bitmap.size c.pixels.size)
    lift (c.blit bitmap)
  else (List.range (bitmap.size / Screen.width)).foldlM (blitRow bitmap) c

theorem blitRow_eq {bitmap : ByteArray} {c : Canvas} (pos : 0 < c.scale) {y : Nat} (inside : y < Screen.height) :
    blitRow bitmap c y = .ok (c.blitRow bitmap y) := by
  have stop {row : Nat} (lt : row < c.scale) : y * c.scale * c.width + row * c.width + c.width ≤ c.pixels.size := by
    have rows : y * c.scale + row + 1 ≤ c.height :=
      calc y * c.scale + row + 1 ≤ y * c.scale + c.scale := by omega
        _ ≤ c.height := Canvas.block_rows_le_height inside
    calc y * c.scale * c.width + row * c.width + c.width = (y * c.scale + row + 1) * c.width := by
          rw [Nat.succ_mul, Nat.add_mul]
      _ ≤ c.pixels.size := Canvas.row_mul_le_size rows
  have first : y * c.scale * c.width + c.width ≤ c.pixels.size := by simpa using stop pos
  have copies : (List.range c.scale).mapM (fun row =>
      slice c.pixels (y * c.scale * c.width + row * c.width) (y * c.scale * c.width + row * c.width + c.width)) =
        .ok ((List.range c.scale).map fun _ => ()) :=
    mapM_eq fun row mem => demand_of ⟨by omega, stop (List.mem_range.1 mem)⟩ _
  unfold blitRow
  dsimp only
  rw [slice, demand_of ⟨by omega, first⟩, ok_bind, demand_of (Nat.ne_of_gt pos), ok_bind, copies]
  rfl

/-- At scale zero there are no blocks to cut a row into. -/
example (bitmap : ByteArray) : blitRow bitmap (Canvas.blank 0) 0 = .error .divisor := rfl

/-- A bitmap of native size is copied. -/
theorem blit_agrees {c : Canvas} {bitmap : ByteArray} (pos : 0 < c.scale) (size : bitmap.size = Screen.area) :
    Agrees (blit c bitmap) (c.blit bitmap) := by
  unfold blit
  by_cases one : c.scale = 1
  · have same : bitmap.size = c.pixels.size := by
      rw [size, c.size_eq, one]
      rfl
    obtain ⟨d, copied, -⟩ := Canvas.blit_of_size pos size
    rw [if_pos one, demand_of same, ok_bind, copied]
    exact .pure d
  · have rows : bitmap.size / Screen.width = Screen.height := by
      rw [size]
      rfl
    rw [Canvas.blit, if_neg one, if_neg one, rows, if_neg (Nat.lt_irrefl _), if_neg fun zero => Nat.ne_of_gt pos zero.1]
    refine ⟨_, rfl, foldlM_canvas (Canvas.scale_blitRow bitmap) fun d same y mem => ?_⟩
    exact blitRow_eq (same ▸ pos) (List.mem_range.1 mem)

end Redraw.Checked

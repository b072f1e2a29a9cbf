import Redraw.Bytes
import Redraw.Fault
import Redraw.Interval
import Redraw.Screen

/-!
# Canvases

A canvas is a picture of palette indices at a scale. Drawing outside of it does nothing. The view of a canvas is
`pixel?`, by output coordinates.
-/

namespace Redraw

/-- A picture of palette indices, row by row. -/
structure Canvas where
  /-- The size of the block that a logical pixel covers. -/
  scale : Nat
  pixels : ByteArray
  size_eq : pixels.size = Screen.area * scale * scale

namespace Canvas

def blank (scale : Nat) : Canvas := ⟨scale, Bytes.zeros (Screen.area * scale * scale), Bytes.size_zeros _⟩

def width (c : Canvas) : Nat := Screen.width * c.scale

def height (c : Canvas) : Nat := Screen.height * c.scale

/-- The pixel at output coordinates, nothing outside of the canvas. -/
def pixel? (c : Canvas) (x y : Int) : Option UInt8 :=
  (Screen.index? c.scale x y).bind (Bytes.at? c.pixels)

def setPixel (c : Canvas) (x y : Int) (v : UInt8) : Canvas :=
  match Screen.index? c.scale x y with
  | some i => ⟨c.scale, Bytes.put c.pixels i v, (Bytes.size_put ..).trans c.size_eq⟩
  | none => c

/-- The column border of the canvas nearest to `x`. -/
def border (c : Canvas) (x : Int) : Nat := (clamp x 0 c.width).toNat

/-- The columns of `[left, right)` that lie on the canvas in row `y`, nothing when there are none. -/
def span? (c : Canvas) (y left right : Int) : Option (Nat × Nat) :=
  if 0 ≤ y ∧ y < c.height ∧ c.border left < c.border right then some (c.border left, c.border right) else none

/-- Stores `v` in the columns `[left, right)` of row `y`. -/
def fillSpan (c : Canvas) (y left right : Int) (v : UInt8) : Canvas :=
  match c.span? y left right with
  | some (first, last) =>
    ⟨c.scale, Bytes.fill c.pixels (y.toNat * c.width + first) (last - first) v,
      (Bytes.size_fill ..).trans c.size_eq⟩
  | none => c

/-- Stores `color x` in every column `x` of `[left, right)` of row `y`. -/
def paintSpan (c : Canvas) (y left right : Int) (color : Int → UInt8) : Canvas :=
  match c.span? y left right with
  | some (first, last) =>
    ⟨c.scale, Bytes.paint c.pixels (y.toNat * c.width + first) (fun x => color x) first (last - first),
      (Bytes.size_paint ..).trans c.size_eq⟩
  | none => c

/-- Stores `v` in the block of the logical pixel `(x, y)`. -/
def fillBlock (c : Canvas) (x y : Int) (v : UInt8) : Canvas :=
  let scale := c.scale
  if 0 ≤ x ∧ x < Screen.width ∧ 0 ≤ y ∧ y < Screen.height then
    (between 0 scale).foldl (fun c row => c.fillSpan (y * scale + row) (x * scale) ((x + 1) * scale) v) c
  else c

def clear (c : Canvas) : Canvas :=
  ⟨c.scale, Bytes.fill c.pixels 0 c.pixels.size 0, (Bytes.size_fill ..).trans c.size_eq⟩

/-! ## Bitmaps -/

/-- Appends `n` copies of a byte. -/
def appendCopies (b : ByteArray) (v : UInt8) : Nat → ByteArray
  | 0 => b
  | n + 1 => appendCopies (b.push v) v n

/-- Row `y` of a bitmap with every pixel repeated `scale` times. -/
def stretchRow (bitmap : ByteArray) (scale y : Nat) : ByteArray :=
  (List.range Screen.width).foldl
    (fun line x => appendCopies line ((Bytes.at? bitmap (y * Screen.width + x)).getD 0) scale)
    (ByteArray.emptyWithCapacity (Screen.width * scale))

/-- Stores a line in the output row `row`. -/
def setRow (c : Canvas) (row : Nat) (line : ByteArray) : Canvas :=
  ⟨c.scale, Bytes.store c.pixels (row * c.width) line, (Bytes.size_store ..).trans c.size_eq⟩

/-- Stores row `y` of a bitmap in all output rows of its blocks. -/
def blitRow (bitmap : ByteArray) (c : Canvas) (y : Nat) : Canvas :=
  let scale := c.scale
  let line := stretchRow bitmap scale y
  (List.range scale).foldl (fun c row => c.setRow (y * scale + row) line) c

/-- Copies a bitmap of native size in, every pixel as a block. At scale one the bitmap is the picture, so it must
have the size of the screen; at other scales a bitmap may have fewer rows, and a rest that is no complete row is
passed over. At scale zero there is no block for a pixel. -/
def blit (c : Canvas) (bitmap : ByteArray) : Except Fault Canvas :=
  if c.scale = 1 then
    if h : bitmap.size = c.pixels.size then .ok ⟨c.scale, bitmap, h.trans c.size_eq⟩
    else .error (.bitmapSize bitmap.size)
  else
    let rows := bitmap.size / Screen.width
    if Screen.height < rows then .error (.bitmapSize bitmap.size)
    else if c.scale = 0 ∧ 0 < rows then .error .zeroScale
    else .ok ((List.range rows).foldl (blitRow bitmap) c)

end Canvas

end Redraw

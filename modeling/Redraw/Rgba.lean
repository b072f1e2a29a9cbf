import Redraw.Canvas
import Redraw.Color

/-!
# Color pictures

A color picture has four bytes per pixel: red, green, blue and alpha. It is what a canvas looks like through a
palette: index zero is fully transparent, every other index is the opaque color of its entry.
-/

namespace Redraw

/-- A picture of four bytes per pixel, row by row. -/
structure Rgba where
  scale : Nat
  bytes : ByteArray
  size_eq : bytes.size = 4 * (Screen.area * scale * scale)

namespace Rgba

def blank (scale : Nat) : Rgba := ⟨scale, Bytes.zeros (4 * (Screen.area * scale * scale)), Bytes.size_zeros _⟩

/-- The four bytes of the pixel at output coordinates, nothing outside of the picture. -/
def pixel? (p : Rgba) (x y : Int) : Option (UInt8 × UInt8 × UInt8 × UInt8) := do
  let i ← Screen.index? p.scale x y
  let r ← Bytes.at? p.bytes (4 * i)
  let g ← Bytes.at? p.bytes (4 * i + 1)
  let b ← Bytes.at? p.bytes (4 * i + 2)
  let a ← Bytes.at? p.bytes (4 * i + 3)
  return (r, g, b, a)

def plot (p : Rgba) (x y : Int) (color : Color) : Rgba :=
  match Screen.index? p.scale x y with
  | some i =>
    ⟨p.scale,
      Bytes.put (Bytes.put (Bytes.put (Bytes.put p.bytes (4 * i) color.red) (4 * i + 1) color.green)
        (4 * i + 2) color.blue) (4 * i + 3) 0xFF,
      by simp [p.size_eq]⟩
  | none => p

/-! ## Resolving a canvas -/

def appendEntry (palette : Palette) (b : ByteArray) (entry : UInt8) : ByteArray :=
  if entry = 0 then (((b.push 0).push 0).push 0).push 0
  else
    let color := palette.color entry
    (((b.push color.red).push color.green).push color.blue).push 0xFF

/-- Appends the bytes of the `n` indices from `i` on. -/
def appendEntries (palette : Palette) (indices : ByteArray) (i : Nat) (b : ByteArray) : Nat → ByteArray
  | 0 => b
  | n + 1 =>
    appendEntries palette indices (i + 1) (appendEntry palette b ((Bytes.at? indices i).getD 0)) n

theorem size_appendEntry (palette : Palette) (b : ByteArray) (entry : UInt8) :
    (appendEntry palette b entry).size = b.size + 4 := by
  unfold appendEntry
  split <;> simp

theorem size_appendEntries (palette : Palette) (indices : ByteArray) (i n : Nat) (b : ByteArray) :
    (appendEntries palette indices i b n).size = b.size + 4 * n := by
  induction n generalizing i b with
  | zero => rfl
  | succ n ih =>
    simp only [appendEntries, ih, size_appendEntry]
    omega

/-- What a canvas looks like through a palette. -/
def resolve (palette : Palette) (c : Canvas) : Rgba where
  scale := c.scale
  bytes := appendEntries palette c.pixels 0 (ByteArray.emptyWithCapacity (4 * c.pixels.size)) c.pixels.size
  size_eq := by
    rw [size_appendEntries, c.size_eq]
    exact Nat.zero_add _

end Rgba

end Redraw

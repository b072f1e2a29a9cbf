import Redraw.Error
import Redraw.Machine.View
import Redraw.Canvas.Sprite
import Redraw.Canvas.Trapezoid
import Redraw.Screen

/-!
# Operands of the V3D routines

How the routines pass what they draw: in registers, and in parameter blocks that the eleventh register points to.
-/

namespace Redraw.V3d

/-- The word at an offset of a parameter block, as a number. -/
def field (m : Machine) (block : Address) (offset : UInt32) : Int := signed32 (m.readWord (block + offset))

/-- The trapezoid in the registers: `r5` the number of rows, `r8` and `r7` the left and right edge, `r10` the
pointer to the first row. -/
def trapezoid (m : Machine) : Trapezoid :=
  .ofRegisters (Screen.rowOf (m.register 10)) (m.register 5) (m.register 8) (m.register 7)

/-! ## Fixed sprites -/

/-- The order of the coordinates in a parameter block. -/
inductive Layout where
  | xFirst
  | yFirst
  deriving DecidableEq, Repr

/-- The player sprite in the block at `r11`: a pointer to the picture, with the mirror flag in its top bit, and the
base position. The picture starts with signed offsets, the size, and a pointer to the texels. A mirrored sprite is
anchored at its right side. -/
def playerSprite (m : Machine) (layout : Layout) (format : TexelFormat) (mask : UInt8) : FixedSprite :=
  let block := m.register 11
  let word := m.readWord block
  let mirror := word &&& 0x80000000 != 0
  let picture := word &&& 0x7FFFFFFF
  let first := field m block 4
  let second := field m block 8
  let (x, y) := match layout with
    | .xFirst => (first, second)
    | .yFirst => (second, first)
  let dx := signed8 (m.readByte picture)
  let dy := signed8 (m.readByte (picture + 1))
  let width : Int := (m.readByte (picture + 2)).toNat
  { x := wrap32 (if mirror then x - dx - width else x + dx)
    y := wrap32 (y + dy)
    width
    height := (m.readByte (picture + 3)).toNat
    mirror
    data := m.readWord (picture + 4)
    format
    mask }

/-! ## Stretched sprites -/

/-- The environment sprite in the block at `r11`, over a texture of 256 bytes a row. -/
def environmentSprite (m : Machine) : StretchedSprite :=
  let block := m.register 11
  { data := m.readWord block
    top := field m block 4
    left := field m block 8
    v0 := field m block 12
    u0 := field m block 16
    bottom := field m block 20
    right := field m block 24
    v1 := field m block 28
    u1 := field m block 32
    stride := 256
    format := .bytes
    bank := 0 }

/-- The sprite of another character in the block at `r11`, with a stride and a bank of its own. -/
def npcSprite (m : Machine) : StretchedSprite :=
  let block := m.register 11
  { stride := field m block 0
    bank := (m.readWord (block + 4)).toUInt8
    data := m.readWord (block + 8)
    top := field m block 12
    left := field m block 16
    v0 := field m block 20
    u0 := field m block 24
    bottom := field m block 28
    right := field m block 32
    v1 := field m block 36
    u1 := field m block 40
    format := .nibbles }

/-- The stretched sprite of Driv3r in the block at `r11`. -/
def driv3rSprite (m : Machine) : StretchedSprite :=
  let block := m.register 11
  { data := m.readWord block
    left := field m block 4
    top := field m block 8
    u0 := field m block 12
    v0 := field m block 16
    right := field m block 20
    bottom := field m block 24
    u1 := field m block 28
    v1 := field m block 32
    stride := field m block 36
    format := .bytes
    bank := 0 }

/-! ## Bitmaps -/

/-- The bitmap of native size at an address, which has to lie in work or internal RAM. -/
def screenBitmap (m : Machine) (a : Address) : Except Error ByteArray :=
  match Region.ofAddress? a with
  | some r =>
    if r = .workRam ∨ r = .internalRam then
      match m.region? r with
      | some bytes =>
        match Bytes.slice? bytes (r.offset a) Screen.area with
        | some bitmap => .ok bitmap
        | none => .error (.copyOutOfBounds a Screen.area)
      | none => .error (.unsupportedRegion a)
    else .error (.unsupportedRegion a)
  | none => .error (.unsupportedRegion a)

end Redraw.V3d

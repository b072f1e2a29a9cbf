import Redraw.Canvas
import Redraw.Machine.View

/-!
# Sprites

A fixed sprite is drawn texel by texel, each a block of output pixels. A stretched sprite is sampled at every
output pixel of a rectangle. Texel zero is transparent in both. Packed texels have four bits, two to a byte, and
an even column is in the high half.
-/

namespace Redraw

/-- How texels are stored. -/
inductive TexelFormat where
  /-- Four bits each, an even column in the high half of a byte. -/
  | nibbles
  /-- One byte each. -/
  | bytes
  deriving DecidableEq, Repr, Inhabited

/-- The half of a byte that a column is in. -/
def nibble (byte : UInt8) (column : Int) : UInt8 :=
  if column % 2 = 1 then byte &&& 0xF else byte >>> 4

/-! ## Fixed sprites -/

/-- A sprite whose texels cover one logical pixel each. -/
structure FixedSprite where
  x : Int
  y : Int
  width : Int
  height : Int
  /-- Whether the columns run from right to left. -/
  mirror : Bool
  data : Address
  format : TexelFormat
  /-- The bits that are set in every texel that shows. -/
  mask : UInt8
  deriving DecidableEq, Repr, Inhabited

namespace FixedSprite

/-- The column of the stored texels that column `x` of the sprite shows. -/
def storedColumn (s : FixedSprite) (x : Int) : Int := if s.mirror then s.width - 1 - x else x

/-- The texel of column `x` and row `y` of the sprite. -/
def texel (s : FixedSprite) (view : View) (x y : Int) : UInt8 :=
  let column := s.storedColumn x
  match s.format with
  | .nibbles => nibble (view.read (s.data + addressOf ((y * s.width + column) / 2))) column
  | .bytes => view.read (s.data + addressOf (y * s.width + column))

/-- The positions inside an extent from `origin` on that lie on a screen of `screen` pixels. -/
def visible (origin extent : Int) (screen : Nat) : List Int :=
  between (max (-origin) 0) (min extent (screen - origin))

/-- The columns and rows of the sprite that lie on the screen, row by row. -/
def visiblePositions (s : FixedSprite) : List (Int × Int) :=
  (visible s.y s.height Screen.height).flatMap fun y =>
    (visible s.x s.width Screen.width).map fun x => (x, y)

end FixedSprite

def Canvas.drawTexel (c : Canvas) (s : FixedSprite) (view : View) (x y : Int) : Canvas :=
  let texel := s.texel view x y
  if texel = 0 then c else c.fillBlock (s.x + x) (s.y + y) (texel ||| s.mask)

def Canvas.drawFixedSprite (c : Canvas) (s : FixedSprite) (view : View) : Canvas :=
  s.visiblePositions.foldl (fun c p => c.drawTexel s view p.1 p.2) c

/-! ## Stretched sprites -/

/-- A texture stretched over a rectangle. -/
structure StretchedSprite where
  left : Int
  top : Int
  right : Int
  bottom : Int
  u0 : Int
  v0 : Int
  u1 : Int
  v1 : Int
  data : Address
  /-- Bytes from one row of the texture to the next. -/
  stride : Int
  format : TexelFormat
  /-- The bank that is set in the high half of every packed texel that shows. -/
  bank : UInt8
  deriving DecidableEq, Repr, Inhabited

/-- The number `step` of `steps` of the way from `start` to `stop`, rounded toward `start`. -/
def interpolate (start stop step steps : Int) : Int := start + (step * (stop - start)).tdiv steps

namespace StretchedSprite

/-- The texel of column `u` and row `v` of the texture. -/
def texel (s : StretchedSprite) (view : View) (u v : Int) : UInt8 :=
  match s.format with
  | .bytes => view.read (s.data + addressOf (v * s.stride + u))
  | .nibbles =>
    let texel := nibble (view.read (s.data + addressOf (v * s.stride + u / 2))) u
    if texel = 0 then 0 else texel ||| s.bank <<< 4

/-- The rectangle of a sprite in output pixels, right and bottom exclusive. -/
structure Area where
  left : Int
  top : Int
  right : Int
  bottom : Int
  deriving DecidableEq, Repr

def area (s : StretchedSprite) (scale : Nat) : Area :=
  ⟨s.left * scale, s.top * scale, s.right * scale, s.bottom * scale⟩

def Area.isEmpty (a : Area) : Bool := a.right ≤ a.left || a.bottom ≤ a.top

/-- The columns of a rectangle that lie on a picture at a scale. -/
def Area.columns (a : Area) (scale : Nat) : List Int :=
  between (max a.left 0) (min a.right (Screen.width * scale : Nat))

/-- The rows of a rectangle that lie on a picture at a scale. -/
def Area.rows (a : Area) (scale : Nat) : List Int :=
  between (max a.top 0) (min a.bottom (Screen.height * scale : Nat))

/-- Whether a rectangle with pixels has none of them on a picture at a scale. -/
def Area.isOffScreen (a : Area) (scale : Nat) : Bool :=
  !a.isEmpty && ((a.columns scale).isEmpty || (a.rows scale).isEmpty)

/-- The texel that output column `x` and row `y` show. -/
def sample (s : StretchedSprite) (view : View) (a : Area) (x y : Int) : UInt8 :=
  s.texel view (interpolate s.u0 s.u1 (x - a.left) (a.right - a.left))
    (interpolate s.v0 s.v1 (y - a.top) (a.bottom - a.top))

/-- The output pixels of a sprite on a picture at a scale, row by row. -/
def positions (s : StretchedSprite) (scale : Nat) : List (Int × Int) :=
  let a := s.area scale
  if a.isEmpty then []
  else (a.rows scale).flatMap fun y => (a.columns scale).map fun x => (x, y)

end StretchedSprite

def Canvas.drawSample (c : Canvas) (s : StretchedSprite) (view : View) (x y : Int) : Canvas :=
  let texel := s.sample view (s.area c.scale) x y
  if texel = 0 then c else c.setPixel x y texel

def Canvas.drawStretchedSprite (c : Canvas) (s : StretchedSprite) (view : View) : Canvas :=
  (s.positions c.scale).foldl (fun c p => c.drawSample s view p.1 p.2) c

end Redraw

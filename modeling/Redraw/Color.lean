import Redraw.Machine

/-!
# Colors and the palette

Palette RAM holds 256 half words of five bits per channel, red lowest. Widening a channel to eight bits repeats
its high bits in the low ones, so that 0 stays 0 and 31 becomes 255.
-/

namespace Redraw

/-- A color of eight bits per channel. -/
structure Color where
  red : UInt8
  green : UInt8
  blue : UInt8
  deriving DecidableEq, Repr, Inhabited

namespace Color

/-- The low five bits of a half word, widened to eight. -/
def widen (channel : UInt16) : UInt8 :=
  let c := (channel &&& 0x1F).toUInt8
  c <<< 3 ||| c >>> 2

def ofEntry (entry : UInt16) : Color := ⟨widen entry, widen (entry >>> 5), widen (entry >>> 10)⟩

/-- The color written `0xRRGGBB`. -/
def ofRgb (rgb : UInt32) : Color := ⟨(rgb >>> 16).toUInt8, (rgb >>> 8).toUInt8, rgb.toUInt8⟩

def text (c : Color) : String := s!"({c.red},{c.green},{c.blue})"

end Color

structure Palette where
  colors : Vector Color 256

namespace Palette

def address : Address := 0x05000000

def read (m : Machine) : Palette :=
  ⟨Vector.ofFn fun i => Color.ofEntry (m.readHalf (address + 2 * UInt32.ofNat i.val))⟩

def color (p : Palette) (entry : UInt8) : Color := p.colors[entry.toFin]

end Palette

end Redraw

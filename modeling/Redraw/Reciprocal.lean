import Redraw.Word

/-!
# Division by reciprocals

Divisions are done as a multiplication by a reciprocal of thirty fraction bits, so that edges and clipped
vertices round the same way everywhere. Reciprocals of small numbers come from a table; the others are divided
out with the same rounding. The reciprocal of zero is zero.
-/

namespace Redraw

def reciprocalTableSize : Nat := 2048

/-- `2 ^ 30 / n`, rounded down, for small `n`. -/
def reciprocalTable : Array Nat := Array.ofFn fun n : Fin reciprocalTableSize => 0x40000000 / n.val

/-- `2 ^ 30 / n` rounded toward zero, with the sign of `n`. -/
def reciprocal (n : Int) : Int :=
  let magnitude := n.natAbs
  let r := (reciprocalTable[magnitude]?).getD (0x40000000 / magnitude)
  if n < 0 then -(r : Int) else r

/-- `num / den` with thirty fraction bits; zero when `den` is zero. -/
def ratio (num den : Int) : Int := num * reciprocal den

/-- `dx / dy` with sixteen fraction bits, rounded down; zero when `dy` is zero. -/
def slope (dx dy : Int) : Int := ratio dx dy / 0x4000

/-- The number the fraction `t`, of thirty bits, of the way from `a` to `b`, rounded to nearest, a half up. -/
def lerp (a b t : Int) : Int := a + wrap32 (((b - a) * t + 0x20000000) / 0x40000000)

/-- The first pixel whose center is at or after `v`, a position with sixteen fraction bits. -/
def firstPixel (v : Int) : Int := (v + 0x7FFF) / 0x10000

end Redraw

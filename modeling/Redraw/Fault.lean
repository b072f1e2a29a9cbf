/-!
# Faults

What a host can do wrong when it calls the library. Unlike an error, a fault is no property of a game's data:
it ends the call.
-/

namespace Redraw

/-- A call outside its contract. -/
inductive Fault where
  /-- The machine has no register of this number. -/
  | noRegister (index : Nat)
  /-- There is no frame of this number. -/
  | noFrame (index : Nat)
  /-- A bitmap of `size` bytes has not the size of the screen. -/
  | bitmapSize (size : Nat)
  /-- A picture of scale zero has no output pixels to divide texels among. -/
  | zeroScale
  /-- A picture of `size` bytes has not the size that its scale asks for. -/
  | pictureSize (size : Nat)
  deriving DecidableEq, Repr

end Redraw

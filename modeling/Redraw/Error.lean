import Redraw.Text.Quoted
import Redraw.Word

/-!
# Errors

What can be wrong with data that a host or a game hands over. None of them stops an engine: a handler logs the
error and draws nothing for the primitive or the copy concerned.
-/

namespace Redraw

/-- A cause for refusing input. -/
inductive Error where
  /-- A cartridge image of `size` bytes ends before its game code. -/
  | romTooShort (size : Nat)
  /-- The address lies outside the regions that a bulk copy can read. -/
  | unsupportedRegion (address : Address)
  /-- A bulk copy of `size` bytes runs past the end of its region. -/
  | copyOutOfBounds (address : Address) (size : Nat)
  /-- No primitive has this tag. -/
  | unknownPrimitive (tag : UInt8)
  /-- The text is not a game code. -/
  | invalidTitleCode (text : String)
  /-- A picture cannot be drawn at this scale. -/
  | invalidScale (scale : Nat)
  deriving DecidableEq, Repr

def Error.message : Error → String
  | .romTooShort size => s!"rom is {size} bytes long, too short to hold a header"
  | .unsupportedRegion address =>
    "unsupported memory region " ++ Text.upperHex 2 (address >>> 24).toNat ++ " (address "
      ++ Text.wordHex address ++ ")"
  | .copyOutOfBounds address size =>
    s!"copy of {size} bytes from " ++ Text.wordHex address ++ " runs past its region"
  | .unknownPrimitive tag => s!"unknown primitive type {tag}"
  | .invalidTitleCode text => "invalid game code " ++ Text.quoted text
  | .invalidScale scale => s!"invalid render scale {scale}"

end Redraw

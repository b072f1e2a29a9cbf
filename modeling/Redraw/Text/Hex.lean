/-!
# Hexadecimal text

Addresses are written in eight upper-case digits, bytes and code points in lower-case ones.
-/

namespace Redraw.Text

/-- The hexadecimal digits of `n`, at least `width` of them, padded with zeros. -/
def hexDigits (width n : Nat) : String :=
  let digits := String.ofList (Nat.toDigits 16 n)
  String.ofList (List.replicate (width - digits.length) '0') ++ digits

/-- The upper-case hexadecimal digits of `n`, at least `width` of them. -/
def upperHex (width n : Nat) : String := (hexDigits width n).toUpper

/-- A word as `0x` and eight upper-case digits. -/
def wordHex (w : UInt32) : String := "0x" ++ upperHex 8 w.toNat

end Redraw.Text

import Redraw.Bytes
import Redraw.Error

/-!
# Titles

A game is known by the four-byte code in the header of its cartridge. The code is kept as the word that the
machine would load: the first byte is the lowest.
-/

namespace Redraw

structure Title where
  /-- The four code bytes, the first in the low byte. -/
  raw : UInt32
  deriving DecidableEq, Repr, Inhabited

namespace Title

/-- Where the header of a cartridge holds the code. -/
def headerOffset : Nat := 0xAC

/-- The title whose code has the bytes `a`, `b`, `c`, `d`. -/
def ofBytes (a b c d : UInt8) : Title :=
  ⟨a.toUInt32 ||| b.toUInt32 <<< 8 ||| c.toUInt32 <<< 16 ||| d.toUInt32 <<< 24⟩

/-- The title whose code is written with four ASCII characters. -/
def ofChars (a b c d : Char) : Title := ofBytes a.toUInt8 b.toUInt8 c.toUInt8 d.toUInt8

/-- The bytes of the code, in order. -/
def bytes (t : Title) : List UInt8 :=
  [t.raw.toUInt8, (t.raw >>> 8).toUInt8, (t.raw >>> 16).toUInt8, (t.raw >>> 24).toUInt8]

/-- Whether a byte is the code of a visible ASCII character. -/
def isGraphic (b : UInt8) : Bool := 0x21 ≤ b && b ≤ 0x7E

/-- A visible ASCII character stands for itself, any other byte is written as `\x` and two digits. -/
def byteText (b : UInt8) : String :=
  if isGraphic b then (Char.ofNat b.toNat).toString else "\\x" ++ Text.hexDigits 2 b.toNat

/-- The text of a title: the texts of its bytes one after the other. -/
def text (t : Title) : String := String.join (t.bytes.map byteText)

instance : ToString Title := ⟨text⟩

/-- Reads a code: exactly four ASCII letters or digits. -/
def parse (s : String) : Except Error Title :=
  match s.toList with
  | [a, b, c, d] =>
    if a.isAlphanum && b.isAlphanum && c.isAlphanum && d.isAlphanum then .ok (ofChars a b c d)
    else .error (.invalidTitleCode s)
  | _ => .error (.invalidTitleCode s)

def ofHeader (rom : ByteArray) : Except Error Title :=
  match Bytes.at? rom headerOffset, Bytes.at? rom (headerOffset + 1), Bytes.at? rom (headerOffset + 2),
      Bytes.at? rom (headerOffset + 3) with
  | some a, some b, some c, some d => .ok (ofBytes a b c d)
  | _, _, _, _ => .error (.romTooShort rom.size)

end Title

end Redraw

import Redraw.Machine

/-!
# Views of one region

Textures and sprites are read byte by byte out of one region. A view takes the bytes of that region once, if
the host hands them out, and falls back to the machine for everything else.
-/

namespace Redraw

/-- A reader of the machine with direct access to one region. -/
structure View where
  machine : Machine
  /-- The region and its bytes, if it is there and handed out. -/
  direct : Option (Region × ByteArray)

namespace View

def ofAddress (m : Machine) (a : Address) : View where
  machine := m
  direct := (Region.ofAddress? a).bind fun r => (m.region? r).map fun bytes => (r, bytes)

/-- The byte of the direct region at an address, nothing outside of its bytes. -/
def direct? (v : View) (a : Address) : Option UInt8 :=
  match v.direct with
  | some (r, bytes) => if Region.ofAddress? a = some r then Bytes.at? bytes (r.offset a) else none
  | none => none

def read (v : View) (a : Address) : UInt8 := (v.direct? a).getD (v.machine.readByte a)

end View

end Redraw

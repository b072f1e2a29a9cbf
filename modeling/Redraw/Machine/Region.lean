import Redraw.Word

/-!
# Memory regions

| region       | first address | size    |
|--------------|---------------|---------|
| work RAM     | `0x02000000`  | 256 KiB |
| internal RAM | `0x03000000`  | 32 KiB  |
| palette RAM  | `0x05000000`  | 1 KiB   |
| video RAM    | `0x06000000`  | 96 KiB  |
| cartridge    | `0x08000000`  | 32 MiB  |

The top byte of an address selects the region. The cartridge answers to six top bytes, two for each of its
three mirrors.
-/

namespace Redraw

inductive Region where
  | workRam
  | internalRam
  | palette
  | video
  | cartridge
  deriving DecidableEq, Repr, Inhabited

namespace Region

/-- The region of an address, nothing for an address that no memory answers to. -/
def ofAddress? (a : Address) : Option Region :=
  let top := a >>> 24
  if top = 0x02 then some .workRam
  else if top = 0x03 then some .internalRam
  else if top = 0x05 then some .palette
  else if top = 0x06 then some .video
  else if 0x08 ≤ top ∧ top ≤ 0x0D then some .cartridge
  else none

/-- Where an address lies inside a region. -/
def offset (r : Region) (a : Address) : Nat :=
  match r with
  | .cartridge => (a &&& 0x01FFFFFF).toNat
  | _ => (a &&& 0x00FFFFFF).toNat

def size : Region → Nat
  | .workRam => 0x40000
  | .internalRam => 0x8000
  | .palette => 0x400
  | .video => 0x18000
  | .cartridge => 0x2000000

def isWritable (r : Region) : Bool := r != .cartridge

end Region

end Redraw

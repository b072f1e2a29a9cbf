import Redraw.Bytes
import Redraw.Machine.Region

/-!
# Memory

A byte store over the regions of the machine. The four RAM regions have their full size; the cartridge is as
long as what was loaded into it. An address that nothing backs reads as zero, and a write to it or to the
cartridge is dropped.
-/

namespace Redraw

structure Memory where
  workRam : ByteArray
  internalRam : ByteArray
  palette : ByteArray
  video : ByteArray
  cartridge : ByteArray
  deriving DecidableEq

namespace Memory

/-- All RAM zero, with `rom` as the cartridge. -/
def withCartridge (rom : ByteArray) : Memory where
  workRam := Bytes.zeros Region.workRam.size
  internalRam := Bytes.zeros Region.internalRam.size
  palette := Bytes.zeros Region.palette.size
  video := Bytes.zeros Region.video.size
  cartridge := rom

def bytes (m : Memory) : Region → ByteArray
  | .workRam => m.workRam
  | .internalRam => m.internalRam
  | .palette => m.palette
  | .video => m.video
  | .cartridge => m.cartridge

/-- Applies `f` to the bytes of a region. -/
def modify (m : Memory) (r : Region) (f : ByteArray → ByteArray) : Memory :=
  match r with
  | .workRam => { m with workRam := f m.workRam }
  | .internalRam => { m with internalRam := f m.internalRam }
  | .palette => { m with palette := f m.palette }
  | .video => { m with video := f m.video }
  | .cartridge => { m with cartridge := f m.cartridge }

def read (m : Memory) (a : Address) : UInt8 :=
  match Region.ofAddress? a with
  | some r => (Bytes.at? (m.bytes r) (r.offset a)).getD 0
  | none => 0

/-- Stores a byte at an address of writable memory. -/
def write (m : Memory) (a : Address) (v : UInt8) : Memory :=
  match Region.ofAddress? a with
  | some r => if r.isWritable then m.modify r (Bytes.put · (r.offset a) v) else m
  | none => m

/-- Loads `data` from an address on, cartridge included. The cartridge grows as far as needed; data that does
not fit into RAM is not loaded at all. -/
def load (m : Memory) (a : Address) (data : ByteArray) : Memory :=
  match Region.ofAddress? a with
  | some .cartridge =>
    let offset := Region.cartridge.offset a
    m.modify .cartridge fun b => Bytes.store (Bytes.padTo b (offset + data.size)) offset data
  | some r => m.modify r (Bytes.store · (r.offset a) data)
  | none => m

@[simp]
theorem bytes_modify (m : Memory) (r s : Region) (f : ByteArray → ByteArray) :
    (m.modify r f).bytes s = if r = s then f (m.bytes s) else m.bytes s := by
  cases r <;> cases s <;> rfl

end Memory

end Redraw

import Redraw.Fault
import Redraw.Machine.Memory

/-!
# The machine

What a handler sees of the emulated machine at a breakpoint: sixteen registers and the memory. Half words and
words are stored lowest byte first, at addresses that wrap around. A journal keeps the addresses that were
written, so that the footprint of a handler can be told.
-/

namespace Redraw

abbrev Register := Fin 16

instance neZeroRegisters : @NeZero Nat .ofOfNat0 16 := ⟨by decide⟩

def Register.ofNat (index : Nat) : Except Fault Register :=
  if h : index < 16 then .ok ⟨index, h⟩ else .error (.noRegister index)

/-- The emulated machine at a breakpoint. -/
structure Machine where
  registers : Vector UInt32 16
  memory : Memory
  /-- Whether the host hands out the bytes of a region as a whole. -/
  exposed : Bool
  /-- The addresses that a byte was written to, the latest first. -/
  journal : List Address

namespace Machine

/-- A machine at rest, with `rom` as its cartridge. -/
def withCartridge (rom : ByteArray) (exposed : Bool) : Machine :=
  ⟨Vector.replicate 16 0, Memory.withCartridge rom, exposed, []⟩

/-! ## Registers -/

def register (m : Machine) (r : Register) : UInt32 := m.registers[r]

def setRegister (m : Machine) (r : Register) (v : UInt32) : Machine :=
  { m with registers := m.registers.set r v }

/-! ## Reading -/

def readByte (m : Machine) (a : Address) : UInt8 := m.memory.read a

def readHalf (m : Machine) (a : Address) : UInt16 :=
  (m.readByte a).toUInt16 ||| (m.readByte (a + 1)).toUInt16 <<< 8

def readWord (m : Machine) (a : Address) : UInt32 :=
  (m.readByte a).toUInt32 ||| (m.readByte (a + 1)).toUInt32 <<< 8
    ||| (m.readByte (a + 2)).toUInt32 <<< 16 ||| (m.readByte (a + 3)).toUInt32 <<< 24

/-- The bytes of a region as a whole, if the host hands them out. -/
def region? (m : Machine) (r : Region) : Option ByteArray :=
  if m.exposed then some (m.memory.bytes r) else none

/-! ## Writing -/

def writeByte (m : Machine) (a : Address) (v : UInt8) : Machine :=
  { m with memory := m.memory.write a v, journal := a :: m.journal }

def writeHalf (m : Machine) (a : Address) (v : UInt16) : Machine :=
  (m.writeByte a v.toUInt8).writeByte (a + 1) (v >>> 8).toUInt8

def writeWord (m : Machine) (a : Address) (v : UInt32) : Machine :=
  (((m.writeByte a v.toUInt8).writeByte (a + 1) (v >>> 8).toUInt8).writeByte (a + 2)
    (v >>> 16).toUInt8).writeByte (a + 3) (v >>> 24).toUInt8

/-- Loads data from outside, which the journal does not record. -/
def load (m : Machine) (a : Address) (data : ByteArray) : Machine :=
  { m with memory := m.memory.load a data }

def clearJournal (m : Machine) : Machine := { m with journal := [] }

end Machine

end Redraw

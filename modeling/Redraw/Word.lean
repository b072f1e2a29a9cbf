/-!
# Machine words read as numbers

The machine holds unsigned words. Coordinates, offsets and edges are integers: this module reads a word as
a two's complement number and brings an integer back into the range of a word.
-/

namespace Redraw

/-- A byte address of the machine; address arithmetic wraps around at `2 ^ 32`. -/
abbrev Address := UInt32

def signed8 (b : UInt8) : Int := (b.toNat : Int).bmod 256

def signed16 (h : UInt16) : Int := (h.toNat : Int).bmod 65536

def signed32 (w : UInt32) : Int := (w.toNat : Int).bmod 4294967296

/-- The integer of the 32-bit two's complement range that agrees with `x` modulo `2 ^ 32`. -/
def wrap32 (x : Int) : Int :=
  if -2147483648 ≤ x ∧ x ≤ 2147483647 then x else x.bmod 4294967296

/-- The integer of the 32-bit two's complement range nearest to `x`. -/
def saturate32 (x : Int) : Int := max (-2147483648) (min x 2147483647)

/-- The number is one of 32 bits in two's complement. -/
def IsWord (x : Int) : Prop := -2147483648 ≤ x ∧ x < 2147483648

def byteOf (x : Int) : UInt8 := UInt8.ofNat (x % 256).toNat

/-- The low half word of an integer, as a number from 0 to 65535. -/
def low16 (x : Int) : Int := x % 65536

/-- The address that agrees with `x` modulo `2 ^ 32`. -/
def addressOf : Int → Address
  | .ofNat n => .ofNat n
  | .negSucc n => -.ofNat (n + 1)

def upperHalf (w : UInt32) : UInt16 := (w >>> 16).toUInt16

def lowerHalf (w : UInt32) : UInt16 := w.toUInt16

theorem wrap32_eq_bmod (x : Int) : wrap32 x = x.bmod 4294967296 := by
  unfold wrap32
  split
  · rw [Int.bmod_eq_of_le] <;> omega
  · rfl

theorem wrap32_eq_self {x : Int} (lo : -2147483648 ≤ x) (hi : x < 2147483648) : wrap32 x = x := by
  unfold wrap32
  rw [if_pos (by omega)]

theorem wrap32_range (x : Int) : -2147483648 ≤ wrap32 x ∧ wrap32 x < 2147483648 := by
  have h₁ := Int.le_bmod (x := x) (m := 4294967296) (by decide)
  have h₂ := Int.bmod_lt (x := x) (m := 4294967296) (by decide)
  rw [wrap32_eq_bmod]
  omega

theorem toNat_addressOf (x : Int) : ((addressOf x).toNat : Int) = x % 4294967296 := by
  cases x with
  | ofNat n =>
    simp only [addressOf, UInt32.toNat_ofNat', Int.ofNat_eq_natCast]
    omega
  | negSucc n =>
    simp only [addressOf, UInt32.toNat_neg, UInt32.toNat_ofNat', UInt32.size, Int.negSucc_eq]
    omega

theorem signed16_range (h : UInt16) : -32768 ≤ signed16 h ∧ signed16 h < 32768 := by
  have h₁ := Int.le_bmod (x := (h.toNat : Int)) (m := 65536) (by decide)
  have h₂ := Int.bmod_lt (x := (h.toNat : Int)) (m := 65536) (by decide)
  unfold signed16
  omega

theorem signed32_range (w : UInt32) : -2147483648 ≤ signed32 w ∧ signed32 w < 2147483648 := by
  have h₁ := Int.le_bmod (x := (w.toNat : Int)) (m := 4294967296) (by decide)
  have h₂ := Int.bmod_lt (x := (w.toNat : Int)) (m := 4294967296) (by decide)
  unfold signed32
  omega

end Redraw

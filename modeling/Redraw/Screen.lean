import Redraw.Fault
import Redraw.Word

/-!
# The screen

The native screen and the two bitmap frames that a game shows in turn. A logical pixel is a pixel of the native
screen; at scale `k` it covers a block of `k × k` output pixels.
-/

namespace Redraw

namespace Screen

def width : Nat := 240

def height : Nat := 160

def area : Nat := 38400

/-- Where the first bitmap frame starts in video RAM. -/
def frame0Address : Address := 0x06000000

/-- The distance between the two bitmap frames. -/
def frameSize : UInt32 := 0xA000

/-- The display mode in which the background is a bitmap of palette indices. -/
def bitmapMode : UInt16 := 4

/-- The row that a pointer into one of the bitmap frames points at. -/
def rowOf (pointer : Address) : Nat := ((pointer - frame0Address) % frameSize).toNat / width

/-- Output coordinates `(x, y)` lie on a picture at a scale. -/
def Contains (scale : Nat) (x y : Int) : Prop :=
  0 ≤ x ∧ x < (width * scale : Nat) ∧ 0 ≤ y ∧ y < (height * scale : Nat)

@[inline]
instance (scale : Nat) (x y : Int) : Decidable (Contains scale x y) :=
  inferInstanceAs (Decidable (0 ≤ x ∧ x < (width * scale : Nat) ∧ 0 ≤ y ∧ y < (height * scale : Nat)))

/-- The index of the pixel `(x, y)` of a picture at a scale, row by row; nothing outside of the picture. -/
def index? (scale : Nat) (x y : Int) : Option Nat :=
  if Contains scale x y then some (y.toNat * (width * scale) + x.toNat) else none

theorem area_eq : area = width * height := rfl

theorem index?_lt {scale i : Nat} {x y : Int} (h : index? scale x y = some i) : i < area * scale * scale := by
  unfold index? at h
  split at h
  · cases h
    rename_i bounds
    obtain ⟨hx, hx', hy, hy'⟩ := bounds
    have hx₁ : x.toNat < width * scale := by omega
    have hy₁ : y.toNat + 1 ≤ height * scale := by omega
    calc y.toNat * (width * scale) + x.toNat
        < y.toNat * (width * scale) + width * scale := by omega
      _ = (y.toNat + 1) * (width * scale) := (Nat.succ_mul _ _).symm
      _ ≤ height * scale * (width * scale) := Nat.mul_le_mul_right _ hy₁
      _ = area * scale * scale := by
        rw [area_eq, Nat.mul_comm width height, Nat.mul_assoc height scale, Nat.mul_left_comm scale,
          Nat.mul_assoc, Nat.mul_assoc]
  · cases h

theorem index?_eq_some {scale : Nat} {x y : Int} (h : Contains scale x y) :
    index? scale x y = some (y.toNat * (width * scale) + x.toNat) := if_pos h

theorem index?_eq_none {scale : Nat} {x y : Int} (h : ¬Contains scale x y) : index? scale x y = none :=
  if_neg h

/-- Two positions of a picture with the same index are the same. -/
theorem index_injective {scale : Nat} {x y x' y' : Int} (h : Contains scale x y) (h' : Contains scale x' y')
    (e : y.toNat * (width * scale) + x.toNat = y'.toNat * (width * scale) + x'.toNat) : x = x' ∧ y = y' := by
  obtain ⟨hx, hx', hy, -⟩ := h
  obtain ⟨kx, kx', ky, -⟩ := h'
  have rows : y.toNat = y'.toNat := by
    have := congrArg (· / (width * scale)) e
    simp only [Nat.mul_comm _ (width * scale)] at this
    rwa [Nat.mul_add_div (by omega), Nat.mul_add_div (by omega), Nat.div_eq_of_lt (by omega),
      Nat.div_eq_of_lt (by omega), Nat.add_zero, Nat.add_zero] at this
  rw [rows] at e
  omega

end Screen

inductive Frame where
  | zero
  | one
  deriving DecidableEq, Repr, Inhabited

namespace Frame

def ofIndex : Nat → Except Fault Frame
  | 0 => .ok .zero
  | 1 => .ok .one
  | index => .error (.noFrame index)

def ofBit (b : Bool) : Frame := if b then .one else .zero

def toNat : Frame → Nat
  | .zero => 0
  | .one => 1

def other : Frame → Frame
  | .zero => .one
  | .one => .zero

end Frame

end Redraw

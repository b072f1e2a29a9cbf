import Redraw.Color

/-!
# What palette RAM says

An entry of the palette is a half word of palette RAM (`Palette.color_read`). Its channels are three fields of five bits, red
lowest, and each is widened to eight bits (`Color.ofEntry_eq`).
-/

namespace Redraw

namespace Color

/-- A number of five bits widened to eight: three zeros behind it, filled with its three high bits. -/
def widened (five : Nat) : UInt8 := .ofNat (8 * five + five / 4)

theorem shifted_eq_widened : ∀ five < 32, UInt8.ofNat five <<< 3 ||| UInt8.ofNat five >>> 2 = widened five := by decide

theorem widen_eq (channel : UInt16) : widen channel = widened (channel.toNat % 32) := by
  have low : (channel &&& 0x1F).toUInt8 = .ofNat (channel.toNat % 32) := by
    apply UInt8.toNat_inj.1
    have five : (channel &&& 0x1F).toNat = channel.toNat % 32 := by
      rw [UInt16.toNat_and]
      exact Nat.and_two_pow_sub_one_eq_mod channel.toNat 5
    rw [UInt16.toNat_toUInt8, UInt8.toNat_ofNat', five]
  rw [widen, low]
  exact shifted_eq_widened _ (Nat.mod_lt _ (by decide))

/-- The channels of an entry are its lowest fifteen bits, five for each. -/
theorem ofEntry_eq (entry : UInt16) :
    ofEntry entry =
      ⟨widened (entry.toNat % 32), widened (entry.toNat / 32 % 32), widened (entry.toNat / 1024 % 32)⟩ := by
  have green : (entry >>> 5).toNat = entry.toNat / 32 := by
    rw [UInt16.toNat_shiftRight]
    exact Nat.shiftRight_eq_div_pow ..
  have blue : (entry >>> 10).toNat = entry.toNat / 1024 := by
    rw [UInt16.toNat_shiftRight]
    exact Nat.shiftRight_eq_div_pow ..
  rw [ofEntry, widen_eq, widen_eq, widen_eq, green, blue]

-- Red is lowest, and a full channel stays full.
example : ofEntry 0x03FF = ⟨255, 255, 0⟩ := by decide

end Color

/-- The color of an index is the half word that palette RAM holds for it. -/
theorem Palette.color_read (m : Machine) (index : UInt8) :
    (read m).color index = Color.ofEntry (m.readHalf (0x05000000 + 2 * index.toUInt32)) := by
  rw [color, read, Fin.getElem_fin, Vector.getElem_ofFn, ← UInt32.ofNat_uInt8ToNat]
  rfl

end Redraw

import Redraw.Machine
import Redraw.Proofs.Word

/-!
# Reading what was written

A write stores a byte at an address that RAM answers to and changes nothing else: addresses of RAM have cells of their
own, unlike those of the cartridge, whose mirrors share them (`Region.eq_of_offset_eq`). All of it follows from one
equation for a byte (`Memory.read_write`).
-/

namespace Redraw

namespace Region

theorem toNat_shiftRight_24 (a : Address) : (a >>> 24).toNat = a.toNat / 0x1000000 := by
  rw [UInt32.toNat_shiftRight, Nat.shiftRight_eq_div_pow]
  rfl

theorem offset_of_isWritable {r : Region} (ram : r.isWritable = true) (a : Address) :
    r.offset a = a.toNat % 0x1000000 := by
  have low : (a &&& 0x00FFFFFF).toNat = a.toNat % 0x1000000 := by
    rw [UInt32.toNat_and]
    exact Nat.and_two_pow_sub_one_eq_mod a.toNat 24
  cases r <;> first | exact low | cases ram

/-- One top byte selects a region of RAM. -/
theorem top_eq {r : Region} (ram : r.isWritable = true) {a b : Address} (ha : ofAddress? a = some r)
    (hb : ofAddress? b = some r) : a >>> 24 = b >>> 24 := by
  unfold ofAddress? at ha hb
  generalize a >>> 24 = s at ha ⊢
  generalize b >>> 24 = t at hb ⊢
  cases r <;> grind [isWritable]

/-- Addresses of RAM have cells of their own. -/
theorem eq_of_offset_eq {r : Region} (ram : r.isWritable = true) {a b : Address} (ha : ofAddress? a = some r)
    (hb : ofAddress? b = some r) (same : r.offset a = r.offset b) : a = b := by
  have top := congrArg UInt32.toNat (top_eq ram ha hb)
  rw [toNat_shiftRight_24, toNat_shiftRight_24] at top
  rw [offset_of_isWritable ram, offset_of_isWritable ram] at same
  exact UInt32.toNat_inj.1 (by omega)

/-- The addresses of RAM follow each other up to the end of the 16 MiB that one top byte selects. -/
theorem offset_add {r : Region} (ram : r.isWritable = true) {a : Address} (ha : ofAddress? a = some r) {i : Nat}
    (inside : r.offset a + i < 0x1000000) :
    ofAddress? (a + .ofNat i) = some r ∧ r.offset (a + .ofNat i) = r.offset a + i := by
  have lt := a.toNat_lt
  rw [offset_of_isWritable ram] at inside
  have sum : (a + .ofNat i).toNat = a.toNat + i := by
    rw [UInt32.toNat_add, UInt32.toNat_ofNat']
    omega
  have top : (a + .ofNat i) >>> 24 = a >>> 24 := by
    apply UInt32.toNat_inj.1
    rw [toNat_shiftRight_24, toNat_shiftRight_24]
    omega
  refine ⟨?_, ?_⟩
  · rw [← ha, ofAddress?, ofAddress?, top]
  · rw [offset_of_isWritable ram, offset_of_isWritable ram, sum]
    omega

end Region

namespace Memory

/-- The regions of RAM have their full size. So it is at rest, and no write and no load changes it. -/
def Full (m : Memory) : Prop := ∀ r, r.isWritable = true → (m.bytes r).size = r.size

/-- RAM answers to the address. -/
def Writable (m : Memory) (a : Address) : Prop :=
  ∃ r, Region.ofAddress? a = some r ∧ r.isWritable = true ∧ r.offset a < (m.bytes r).size

theorem read_put (m : Memory) {r : Region} (ram : r.isWritable = true) {a : Address} (ha : Region.ofAddress? a = some r)
    (v : UInt8) (b : Address) :
    (m.modify r (Bytes.put · (r.offset a) v)).read b =
      if a = b ∧ r.offset a < (m.bytes r).size then v else m.read b := by
  unfold read
  cases hb : Region.ofAddress? b with
  | none =>
    have other : a ≠ b := by
      rintro rfl
      rw [ha] at hb
      cases hb
    rw [if_neg fun both => other both.1]
  | some r' =>
    simp only [bytes_modify]
    by_cases same : r = r'
    · subst same
      have cell : r.offset a = r.offset b ↔ a = b := ⟨Region.eq_of_offset_eq ram ha hb, congrArg _⟩
      simp only [if_true, Bytes.at?_put, cell]
      split <;> rfl
    · have other : a ≠ b := by
        rintro rfl
        rw [ha, Option.some.injEq] at hb
        exact same hb
      rw [if_neg same, if_neg fun both => other both.1]

theorem read_write (m : Memory) (a : Address) (v : UInt8) (b : Address) [Decidable (a = b ∧ m.Writable a)] :
    (m.write a v).read b = if a = b ∧ m.Writable a then v else m.read b := by
  unfold write
  cases ha : Region.ofAddress? a with
  | none =>
    have nowhere : ¬m.Writable a := fun ⟨r, hr, _⟩ => by simp [ha] at hr
    rw [if_neg fun both => nowhere both.2]
  | some r =>
    dsimp only
    split
    · rename_i ram
      have backed : m.Writable a ↔ r.offset a < (m.bytes r).size := by
        simp only [Writable, ha, Option.some.injEq, exists_eq_left', ram, true_and]
      rw [read_put m ram ha]
      simp only [backed]
    · rename_i rom
      have unbacked : ¬m.Writable a := by
        rintro ⟨r', hr', ram, -⟩
        rw [ha, Option.some.injEq] at hr'
        exact rom (hr' ▸ ram)
      rw [if_neg fun both => unbacked both.2]

@[simp]
theorem size_bytes_write (m : Memory) (a : Address) (v : UInt8) (r : Region) :
    ((m.write a v).bytes r).size = (m.bytes r).size := by
  unfold write
  split
  · split
    · rw [bytes_modify]
      split
      · exact Bytes.size_put ..
      · rfl
    · rfl
  · rfl

theorem bytes_withCartridge {r : Region} (ram : r ≠ .cartridge) (rom : ByteArray) :
    (withCartridge rom).bytes r = Bytes.zeros r.size := by
  cases r with
  | workRam | internalRam | palette | video => rw [bytes, withCartridge]
  | cartridge => exact absurd rfl ram

theorem full_withCartridge (rom : ByteArray) : (withCartridge rom).Full := by
  intro r ram
  rw [bytes_withCartridge (by rintro rfl; cases ram), Bytes.size_zeros]

theorem Full.writable {m : Memory} (full : m.Full) {r : Region} (ram : r.isWritable = true) {a : Address}
    (ha : Region.ofAddress? a = some r) (inside : r.offset a < r.size) : m.Writable a :=
  ⟨r, ha, ram, (full r ram).symm ▸ inside⟩

theorem Full.write {m : Memory} (full : m.Full) (a : Address) (v : UInt8) : (m.write a v).Full :=
  fun r ram => (size_bytes_write ..).trans (full r ram)

theorem Full.load {m : Memory} (full : m.Full) (a : Address) (data : ByteArray) : (m.load a data).Full := by
  intro r ram
  rw [← full r ram]
  unfold Memory.load
  split
  · rw [bytes_modify, if_neg (by rintro rfl; cases ram)]
  · rw [bytes_modify]
    split
    · exact Bytes.size_store ..
    · rfl
  · rfl

@[simp]
theorem writable_write {m : Memory} {a : Address} {v : UInt8} {b : Address} :
    (m.write a v).Writable b ↔ m.Writable b := by
  simp only [Writable, size_bytes_write]

end Memory

namespace Machine

variable {m : Machine} {a b : Address}

@[simp]
theorem writable_writeByte {v : UInt8} : (m.writeByte a v).memory.Writable b ↔ m.memory.Writable b :=
  Memory.writable_write

@[simp]
theorem writable_writeHalf {v : UInt16} : (m.writeHalf a v).memory.Writable b ↔ m.memory.Writable b := by
  rw [writeHalf, writable_writeByte, writable_writeByte]

theorem readByte_writeByte_self (ram : m.memory.Writable a) (v : UInt8) : (m.writeByte a v).readByte a = v := by
  classical
  exact (m.memory.read_write a v a).trans (if_pos ⟨rfl, ram⟩)

theorem readByte_writeByte_of_ne (apart : a ≠ b) (m : Machine) (v : UInt8) :
    (m.writeByte a v).readByte b = m.readByte b := by
  classical
  exact (m.memory.read_write a v b).trans (if_neg fun both => apart both.1)

theorem readByte_writeHalf_of_ne (apart : a ≠ b) (apart' : a + 1 ≠ b) (m : Machine) (v : UInt16) :
    (m.writeHalf a v).readByte b = m.readByte b := by
  rw [writeHalf, readByte_writeByte_of_ne apart', readByte_writeByte_of_ne apart]

/-- Writes bytes one after the other. -/
def writeBytes (m : Machine) (writes : List (Address × UInt8)) : Machine :=
  writes.foldl (fun m write => m.writeByte write.1 write.2) m

theorem writeBytes_append (m : Machine) (writes more : List (Address × UInt8)) :
    m.writeBytes (writes ++ more) = (m.writeBytes writes).writeBytes more := List.foldl_append

/-- Every write is in the journal. -/
theorem journal_writeBytes (m : Machine) (writes : List (Address × UInt8)) :
    (m.writeBytes writes).journal = (writes.map Prod.fst).reverse ++ m.journal := by
  induction writes generalizing m with
  | nil => rfl
  | cons write writes ih =>
    rw [List.map_cons, List.reverse_cons, List.append_assoc]
    exact ih (m.writeByte write.1 write.2)

/-- The RAM of a machine at rest is zero. -/
theorem readByte_withCartridge (ram : Region.ofAddress? a ≠ some .cartridge) (rom : ByteArray) (exposed : Bool) :
    (withCartridge rom exposed).readByte a = 0 := by
  unfold readByte Memory.read withCartridge
  cases region : Region.ofAddress? a with
  | none => rfl
  | some r =>
    dsimp only
    rw [Memory.bytes_withCartridge fun same => ram (same ▸ region), Bytes.at?_zeros]
    split <;> rfl

theorem add_one_ne (a : Address) : a ≠ a + 1 := by simp

theorem half_of_bytes (v : UInt16) : v.toUInt8.toUInt16 ||| (v >>> 8).toUInt8.toUInt16 <<< 8 = v := by
  have := v.toNat_lt
  have low : v.toUInt8.toNat = v.toNat % 2 ^ 8 := by simp
  have high : (v >>> 8).toUInt8.toNat = v.toNat / 2 ^ 8 := by
    simp [Nat.shiftRight_eq_div_pow]
    omega
  apply UInt16.toNat_inj.1
  rw [toNat_half_of_bytes, low, high]
  omega

theorem readHalf_writeHalf_self (ram : m.memory.Writable a) (ram' : m.memory.Writable (a + 1)) (v : UInt16) :
    (m.writeHalf a v).readHalf a = v := by
  have low : (m.writeHalf a v).readByte a = v.toUInt8 := by
    rw [writeHalf, readByte_writeByte_of_ne (add_one_ne a).symm, readByte_writeByte_self ram]
  have high : (m.writeHalf a v).readByte (a + 1) = (v >>> 8).toUInt8 := by
    rw [writeHalf, readByte_writeByte_self (writable_writeByte.2 ram')]
  rw [readHalf, low, high, half_of_bytes]

end Machine

end Redraw

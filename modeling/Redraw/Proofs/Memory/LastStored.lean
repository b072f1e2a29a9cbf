import Mathlib.Data.List.Nodup
import Redraw.Proofs.Memory.Cells

/-!
# The last byte stored in a cell is read

A half word or a word is written as its digits to the base 256 (`Machine.writeHalf_eq`, `Machine.writeWord_eq`), so what
follows for bytes written one after the other holds for both. One store leaves in every cell the last byte that it puts
there (`Machine.value_store`), so a run of stores does (`Machine.value_storeAll`), and a byte that is read is the last one
that was stored (`Machine.reads_last_stored`).
-/

namespace Redraw.Machine

variable {m : Machine}

def store (m : Machine) : Store → Machine
  | .load a data => m.load a data
  | .byte a v => m.writeByte a v
  | .half a v => m.writeHalf a v
  | .word a v => m.writeWord a v

def storeAll (m : Machine) (stores : List Store) : Machine := stores.foldl store m

/-! ## Writes of several bytes -/

theorem digits_half (a : Address) (v : UInt16) :
    Store.digits a 2 v.toNat = [(a, v.toUInt8), (a + 1, (v >>> 8).toUInt8)] := by
  have high : UInt8.ofNat (v.toNat / 256) = (v >>> 8).toUInt8 := by
    apply UInt8.toNat_inj.1
    simp [Nat.shiftRight_eq_div_pow]
  simp [Store.digits, List.range_succ, high]

theorem toUInt8_shiftRight (v : UInt32) {k : UInt32} (short : k.toNat < 32) :
    (v >>> k).toUInt8 = .ofNat (v.toNat / 2 ^ k.toNat) := by
  apply UInt8.toNat_inj.1
  rw [UInt32.toNat_toUInt8, UInt32.toNat_shiftRight, UInt8.toNat_ofNat', Nat.mod_eq_of_lt short,
    Nat.shiftRight_eq_div_pow]

theorem digits_word (a : Address) (v : UInt32) :
    Store.digits a 4 v.toNat =
      [(a, v.toUInt8), (a + 1, (v >>> 8).toUInt8), (a + 2, (v >>> 16).toUInt8), (a + 3, (v >>> 24).toUInt8)] := by
  rw [toUInt8_shiftRight v (by decide), toUInt8_shiftRight v (by decide), toUInt8_shiftRight v (by decide)]
  simp [Store.digits, List.range_succ]

theorem writeHalf_eq (m : Machine) (a : Address) (v : UInt16) :
    m.writeHalf a v = m.writeBytes (Store.digits a 2 v.toNat) := by
  rw [digits_half]
  rfl

theorem writeWord_eq (m : Machine) (a : Address) (v : UInt32) :
    m.writeWord a v = m.writeBytes (Store.digits a 4 v.toNat) := by
  rw [digits_word]
  rfl

theorem full_writeBytes (full : m.memory.Full) (writes : List (Address × UInt8)) : (m.writeBytes writes).memory.Full := by
  induction writes generalizing m with
  | nil => exact full
  | cons write writes ih => exact ih (m := m.writeByte write.1 write.2) (full.write _ _)

theorem byte?_writeBytes (full : m.memory.Full) (writes : List (Address × UInt8)) (c : Cell) :
    (m.writeBytes writes).memory.byte? c = (Cell.last? (writes.flatMap Store.written) c).or (m.memory.byte? c) := by
  induction writes generalizing m with
  | nil => rfl
  | cons write writes ih =>
    have later := ih (m := m.writeByte write.1 write.2) (full.write _ _)
    rw [List.flatMap_cons, Cell.last?_append, Cell.last?_written, Option.or_assoc]
    refine later.trans (congrArg _ ?_)
    rw [writeByte, Memory.byte?_write full]
    split <;> rfl

theorem readByte_writeBytes_of_not_mem {writes : List (Address × UInt8)} {a : Address}
    (absent : a ∉ writes.map Prod.fst) (m : Machine) : (m.writeBytes writes).readByte a = m.readByte a := by
  induction writes generalizing m with
  | nil => rfl
  | cons write writes ih =>
    rw [List.map_cons, List.mem_cons, not_or] at absent
    exact (ih absent.2 _).trans (readByte_writeByte_of_ne (Ne.symm absent.1) ..)

theorem readByte_writeBytes_of_mem {writes : List (Address × UInt8)} {a : Address} {v : UInt8}
    (apart : (writes.map Prod.fst).Nodup) (ram : ∀ write ∈ writes, m.memory.Writable write.1) (mem : (a, v) ∈ writes) :
    (m.writeBytes writes).readByte a = v := by
  induction writes generalizing m with
  | nil => cases mem
  | cons write writes ih =>
    rw [List.map_cons, List.nodup_cons] at apart
    rw [List.forall_mem_cons] at ram
    rcases List.mem_cons.1 mem with rfl | mem
    · exact (readByte_writeBytes_of_not_mem apart.1 _).trans (readByte_writeByte_self ram.1 v)
    · exact ih apart.2 (fun write mem => writable_writeByte.2 (ram.2 write mem)) mem

theorem add_ofNat_inj (a : Address) {i j : Nat} (hi : i < 2 ^ 32) (hj : j < 2 ^ 32) (same : a + .ofNat i = a + .ofNat j) :
    i = j := by
  have same := congrArg UInt32.toNat ((UInt32.add_right_inj a).1 same)
  rwa [UInt32.toNat_ofNat_of_lt' hi, UInt32.toNat_ofNat_of_lt' hj] at same

theorem nodup_digits (a : Address) {n : Nat} (short : n ≤ 2 ^ 32) (v : Nat) :
    ((Store.digits a n v).map Prod.fst).Nodup := by
  rw [Store.digits, List.map_map]
  refine List.Nodup.map_on (fun i hi j hj same => ?_) List.nodup_range
  rw [List.mem_range] at hi hj
  exact add_ofNat_inj a (by omega) (by omega) same

/-- The digits of a number that is written over RAM are read back. -/
theorem readByte_digits (full : m.memory.Full) {a : Address} {n : Nat} (short : n ≤ 2 ^ 32)
    (ram : ∀ i < n, Cell.Maps (a + .ofNat i)) (v : Nat) {i : Nat} (hi : i < n) :
    (m.writeBytes (Store.digits a n v)).readByte (a + .ofNat i) = .ofNat (v / 256 ^ i) := by
  refine readByte_writeBytes_of_mem (nodup_digits a short v) (fun write mem => ?_) ?_
  · obtain ⟨j, hj, rfl⟩ := List.mem_map.1 mem
    exact (Memory.writable_iff full).2 (ram j (List.mem_range.1 hj))
  · exact List.mem_map.2 ⟨i, List.mem_range.2 hi, rfl⟩

theorem last?_flatMap_written_eq_none {writes : List (Address × UInt8)} {c : Cell}
    (apart : ∀ write ∈ writes, Cell.ofAddress? write.1 ≠ some c) :
    Cell.last? (writes.flatMap Store.written) c = none := by
  induction writes with
  | nil => rfl
  | cons write writes ih =>
    rw [List.forall_mem_cons] at apart
    rw [List.flatMap_cons, Cell.last?_append, ih apart.2, Cell.last?_written, if_neg (mt And.left apart.1)]
    rfl

theorem byte?_digits_of_ne (full : m.memory.Full) {a : Address} {n : Nat} {c : Cell}
    (apart : ∀ i < n, Cell.ofAddress? (a + .ofNat i) ≠ some c) (v : Nat) :
    (m.writeBytes (Store.digits a n v)).memory.byte? c = m.memory.byte? c := by
  rw [byte?_writeBytes full, last?_flatMap_written_eq_none, Option.none_or]
  intro write mem
  obtain ⟨i, hi, rfl⟩ := List.mem_map.1 mem
  exact apart i (List.mem_range.1 hi)

theorem toNat_readHalf (m : Machine) (a : Address) :
    (m.readHalf a).toNat = (m.readByte a).toNat + 2 ^ 8 * (m.readByte (a + 1)).toNat := toNat_half_of_bytes ..

theorem toNat_readWord (m : Machine) (a : Address) :
    (m.readWord a).toNat = (m.readByte a).toNat + 2 ^ 8 * (m.readByte (a + 1)).toNat +
      2 ^ 16 * (m.readByte (a + 2)).toNat + 2 ^ 24 * (m.readByte (a + 3)).toNat := toNat_word_of_bytes ..

theorem readHalf_writeHalf (full : m.memory.Full) {a : Address} (ram : ∀ i < 2, Cell.Maps (a + .ofNat i)) (v : UInt16) :
    (m.writeHalf a v).readHalf a = v := by
  have mapped {b : Address} (h : Cell.Maps b) := (Memory.writable_iff full).2 h
  exact readHalf_writeHalf_self (mapped (UInt32.add_zero a ▸ ram 0 (by decide))) (mapped (ram 1 (by decide))) v

theorem readWord_writeWord (full : m.memory.Full) {a : Address} (ram : ∀ i < 4, Cell.Maps (a + .ofNat i)) (v : UInt32) :
    (m.writeWord a v).readWord a = v := by
  have := v.toNat_lt
  have digit (i : Nat) (hi : i < 4) :
      ((m.writeWord a v).readByte (a + .ofNat i)).toNat = v.toNat / 256 ^ i % 2 ^ 8 := by
    rw [writeWord_eq, readByte_digits full (by decide) ram v.toNat hi, UInt8.toNat_ofNat']
  have first : ((m.writeWord a v).readByte a).toNat = v.toNat % 2 ^ 8 := by
    simpa using digit 0 (by decide)
  have second : ((m.writeWord a v).readByte (a + 1)).toNat = v.toNat / 2 ^ 8 % 2 ^ 8 := digit 1 (by decide)
  have third : ((m.writeWord a v).readByte (a + 2)).toNat = v.toNat / 2 ^ 16 % 2 ^ 8 := digit 2 (by decide)
  have fourth : ((m.writeWord a v).readByte (a + 3)).toNat = v.toNat / 2 ^ 24 % 2 ^ 8 := digit 3 (by decide)
  apply UInt32.toNat_inj.1
  rw [toNat_readWord, first, second, third, fourth]
  omega

/-! ## Runs -/

theorem full_store (full : m.memory.Full) (s : Store) : (m.store s).memory.Full := by
  cases s with
  | load a data => exact full.load a data
  | byte a v => exact full.write a v
  | half a v =>
    rw [store, writeHalf_eq]
    exact full_writeBytes full _
  | word a v =>
    rw [store, writeWord_eq]
    exact full_writeBytes full _

theorem value_writeBytes (full : m.memory.Full) (writes : List (Address × UInt8)) (c : Cell) :
    (m.writeBytes writes).memory.value c = (Cell.last? (writes.flatMap Store.written) c).getD (m.memory.value c) := by
  rw [Memory.value, byte?_writeBytes full, Option.getD_or]
  rfl

/-- One store leaves in every cell the last byte that it puts there. -/
theorem value_store (full : m.memory.Full) (s : Store) (c : Cell) :
    (m.store s).memory.value c = (Cell.last? s.bytes c).getD (m.memory.value c) := by
  cases s with
  | load a data => exact Memory.value_load full a data c
  | byte a v => exact (value_writeBytes full [(a, v)] c).trans (by rw [List.flatMap_singleton]; rfl)
  | half a v =>
    rw [store, writeHalf_eq]
    exact value_writeBytes full _ c
  | word a v =>
    rw [store, writeWord_eq]
    exact value_writeBytes full _ c

theorem full_storeAll (full : m.memory.Full) (stores : List Store) : (m.storeAll stores).memory.Full := by
  induction stores generalizing m with
  | nil => exact full
  | cons s stores ih => exact ih (full_store full s)

theorem value_storeAll (full : m.memory.Full) (stores : List Store) (c : Cell) :
    (m.storeAll stores).memory.value c = (Cell.last? (stores.flatMap Store.bytes) c).getD (m.memory.value c) := by
  induction stores generalizing m with
  | nil => rfl
  | cons s stores ih =>
    refine (ih (full_store full s)).trans ?_
    rw [List.flatMap_cons, Cell.last?_append, Option.getD_or, value_store full]

/-- The byte that a cell holds at rest: the cartridge holds what it was given, and RAM is zero. -/
theorem value_withCartridge (rom : ByteArray) (exposed : Bool) (c : Cell) :
    (withCartridge rom exposed).memory.value c = c.atRest rom := by
  rw [Cell.atRest, withCartridge, Memory.value, Memory.byte?]
  split
  · rename_i cartridge
    rw [cartridge]
    rfl
  · rename_i ram
    rw [Memory.bytes_withCartridge ram, Bytes.at?_zeros]
    split <;> rfl

/-- How a machine stores bytes, apart from which one is read. -/
structure StoresBytes (m : Machine) : Prop where
  /-- A byte that is written outside of RAM is dropped. -/
  writeByte_unmapped : ∀ a v, ¬Cell.Maps a → (m.writeByte a v).memory = m.memory
  /-- Data that do not fit into RAM are not loaded at all. -/
  load_misfit : ∀ a c data, Cell.ofAddress? a = some c → c.region ≠ .cartridge →
    c.region.size < c.offset + data.size → m.load a data = m
  /-- The cartridge grows as far as the data that are loaded reach, with zeros before them. -/
  size_load : ∀ a c data, Cell.ofAddress? a = some c → c.region = .cartridge →
    ((m.load a data).memory.bytes .cartridge).size = max (m.memory.bytes .cartridge).size (c.offset + data.size)
  byte?_load : ∀ a c data, Cell.ofAddress? a = some c → c.region = .cartridge → ∀ i,
    (m.load a data).memory.byte? ⟨.cartridge, i⟩ =
      if c.offset ≤ i ∧ i < c.offset + data.size then Bytes.at? data (i - c.offset)
      else if (m.memory.bytes .cartridge).size ≤ i ∧ i < c.offset then some 0
      else m.memory.byte? ⟨.cartridge, i⟩
  /-- Half words and words have their bytes for digits, the lowest first, at addresses that wrap around. -/
  toNat_readHalf : ∀ a, (m.readHalf a).toNat = (m.readByte a).toNat + 2 ^ 8 * (m.readByte (a + 1)).toNat
  toNat_readWord : ∀ a, (m.readWord a).toNat = (m.readByte a).toNat + 2 ^ 8 * (m.readByte (a + 1)).toNat +
    2 ^ 16 * (m.readByte (a + 2)).toNat + 2 ^ 24 * (m.readByte (a + 3)).toNat
  /-- What is written over RAM is read back. -/
  readHalf_writeHalf : ∀ a, (∀ i < 2, Cell.Maps (a + .ofNat i)) → ∀ v, (m.writeHalf a v).readHalf a = v
  readWord_writeWord : ∀ a, (∀ i < 4, Cell.Maps (a + .ofNat i)) → ∀ v, (m.writeWord a v).readWord a = v
  /-- No cells change but those of the addresses that are written to. -/
  byte?_writeHalf : ∀ a c, (∀ i < 2, Cell.ofAddress? (a + .ofNat i) ≠ some c) → ∀ v,
    (m.writeHalf a v).memory.byte? c = m.memory.byte? c
  byte?_writeWord : ∀ a c, (∀ i < 4, Cell.ofAddress? (a + .ofNat i) ≠ some c) → ∀ v,
    (m.writeWord a v).memory.byte? c = m.memory.byte? c

theorem storesBytes (full : m.memory.Full) : m.StoresBytes where
  writeByte_unmapped a v unmapped := Memory.write_of_not_maps full unmapped v
  load_misfit a c data cell ram misfit := by
    rw [load, Memory.load_of_misfit full cell ram misfit]
  size_load a c data cell rom := by
    rw [load, Memory.bytes_load cell rom, Bytes.size_store, Bytes.size_padTo]
  byte?_load a c data cell rom i := Memory.byte?_load cell rom data i
  toNat_readHalf := Machine.toNat_readHalf m
  toNat_readWord := Machine.toNat_readWord m
  readHalf_writeHalf a ram v := Machine.readHalf_writeHalf full ram v
  readWord_writeWord a ram v := Machine.readWord_writeWord full ram v
  byte?_writeHalf a c apart v := by
    rw [writeHalf_eq]
    exact byte?_digits_of_ne full apart v.toNat
  byte?_writeWord a c apart v := by
    rw [writeWord_eq]
    exact byte?_digits_of_ne full apart v.toNat

/-- **The last byte stored in a cell is read.** After any run of loads and writes, what is read at an address is the byte
that was stored last in its cell. If none was, it is what the cartridge was given there, which is nothing for a new machine,
and zero in RAM and where no cell answers. The six mirrors of the cartridge share their cells, one for each offset below
32 MiB. Loads and writes store all of their bytes or, where they miss RAM, none (`Store.bytes`, `StoresBytes`). -/
theorem reads_last_stored (rom : ByteArray) (exposed : Bool) (stores : List Store) :
    let m := (withCartridge rom exposed).storeAll stores
    (∀ a, m.readByte a =
      match Cell.ofAddress? a with
      | some c => (Cell.last? (stores.flatMap Store.bytes) c).getD (c.atRest rom)
      | none => 0) ∧
    (∀ c, Cell.atRest ByteArray.empty c = 0) ∧
    (∀ a : Address, 0x08000000 ≤ a.toNat → a.toNat < 0x0E000000 →
      Cell.ofAddress? a = some ⟨.cartridge, a.toNat % 0x2000000⟩) ∧
    m.StoresBytes := by
  intro m
  have full : (withCartridge rom exposed).memory.Full := Memory.full_withCartridge rom
  refine ⟨fun a => ?_, fun c => ?_, fun a => Cell.ofAddress?_of_mirror, storesBytes (full_storeAll full stores)⟩
  · rw [readByte, Memory.read_eq]
    cases Cell.ofAddress? a with
    | none => rfl
    | some c => rw [Option.map_some, Option.getD_some, value_storeAll full, value_withCartridge]
  · rw [Cell.atRest, Bytes.at?_eq_none_iff.2 (Nat.zero_le _)]
    exact ite_self _

/-- Words over the end of work RAM and of each other, a write to the cartridge, and loads, one of which does not fit. -/
theorem reads_last_stored_overlapping :
    let stores : List Store := [.load 0x08000100 ⟨#[9, 8]⟩, .word 0x0203FFFE 0x12345678, .half 0x0203FFFD 0xABCD,
      .byte 0x08000100 0xFF, .load 0x0203FFFF ⟨#[1, 2]⟩]
    let m := (withCartridge ByteArray.empty false).storeAll stores
    (m.readByte 0x0203FFFD = 0xCD ∧ m.readByte 0x0203FFFE = 0xAB ∧ m.readByte 0x0203FFFF = 0x56 ∧
      m.readByte 0x02040000 = 0) ∧
      ((0x08000000 ≤ (0x0C000100 : Address).toNat ∧ (0x0C000100 : Address).toNat < 0x0E000000) ∧
        Cell.ofAddress? 0x0C000100 = some ⟨.cartridge, 0x100⟩ ∧ m.readByte 0x0C000100 = 9) ∧
      (∀ i < 4, Cell.Maps (0x0203FFFC + .ofNat i)) ∧ (m.writeWord 0x0203FFFC 7).readWord 0x0203FFFC = 7 := by
  intro stores m
  obtain ⟨reads, -, mirrors, wide⟩ := reads_last_stored ByteArray.empty false stores
  have ram : ∀ i < 4, Cell.Maps (0x0203FFFC + .ofNat i) := by decide
  refine ⟨⟨?_, ?_, ?_, ?_⟩, ⟨⟨by decide, by decide⟩, mirrors _ (by decide) (by decide), ?_⟩, ram,
    wide.readWord_writeWord _ ram 7⟩
  all_goals exact (reads _).trans (by decide)

end Redraw.Machine

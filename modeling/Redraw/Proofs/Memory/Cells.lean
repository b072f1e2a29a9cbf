import Redraw.Proofs.Memory

/-!
# Cells

A cell is a region with an offset in it. Every address has at most one; the mirrors of the cartridge share theirs
(`Cell.ofAddress?_of_mirror`). A write and a load store bytes in cells, which is said without looking at what is there
(`Store.bytes`). A write leaves in every cell the byte that it stores there, if any (`Memory.byte?_write`), and so does a
load, but for the zeros that lengthen the cartridge (`Memory.value_load`).
-/

namespace Redraw

structure Cell where
  region : Region
  offset : Nat
  deriving DecidableEq, Repr

namespace Cell

def ofAddress? (a : Address) : Option Cell := (Region.ofAddress? a).map fun r => ⟨r, r.offset a⟩

/-- The cell lies in RAM: not on the cartridge, and before the end of its region. -/
def InRam (c : Cell) : Prop := c.region ≠ .cartridge ∧ c.offset < c.region.size

instance (c : Cell) : Decidable c.InRam := inferInstanceAs (Decidable (_ ∧ _))

/-- A cell of RAM answers to the address. -/
def Maps (a : Address) : Prop := ∃ c ∈ ofAddress? a, c.InRam

instance (a : Address) : Decidable (Maps a) := inferInstanceAs (Decidable (∃ c ∈ ofAddress? a, c.InRam))

/-- The byte that the cell of a cartridge holds at rest; RAM is zero. -/
def atRest (rom : ByteArray) (c : Cell) : UInt8 :=
  if c.region = .cartridge then (Bytes.at? rom c.offset).getD 0 else 0

/-- The cells of bytes that lie one after the other. -/
def spread (r : Region) (offset : Nat) : List UInt8 → List (Cell × UInt8)
  | [] => []
  | v :: vs => (⟨r, offset⟩, v) :: spread r (offset + 1) vs

/-- The byte that was stored in a cell last. -/
def last? (stores : List (Cell × UInt8)) (c : Cell) : Option UInt8 := stores.reverse.lookup c

end Cell

/-- A store from outside or by a write. -/
inductive Store where
  | load (a : Address) (data : ByteArray)
  | byte (a : Address) (v : UInt8)
  | half (a : Address) (v : UInt16)
  | word (a : Address) (v : UInt32)

namespace Store

/-- The lowest `n` digits of a number to the base 256, the lowest first, one after the other from an address on. -/
def digits (a : Address) (n v : Nat) : List (Address × UInt8) :=
  (List.range n).map fun i => (a + .ofNat i, .ofNat (v / 256 ^ i))

/-- What a byte that is written stores: nothing outside of RAM. -/
def written (write : Address × UInt8) : List (Cell × UInt8) :=
  match Cell.ofAddress? write.1 with
  | some c => if c.InRam then [(c, write.2)] else []
  | none => []

/-- What is loaded: all of the data or, where it does not fit into RAM, nothing. -/
def loaded (a : Address) (data : ByteArray) : List (Cell × UInt8) :=
  match Cell.ofAddress? a with
  | some c =>
    if c.region = .cartridge ∨ c.offset + data.size ≤ c.region.size then Cell.spread c.region c.offset data.data.toList
    else []
  | none => []

/-- The bytes that are stored, one after the other. -/
def bytes : Store → List (Cell × UInt8)
  | .load a data => loaded a data
  | .byte a v => written (a, v)
  | .half a v => (digits a 2 v.toNat).flatMap written
  | .word a v => (digits a 4 v.toNat).flatMap written

end Store

/-! ## Bytes stored in cells -/

namespace Cell

theorem ofAddress?_eq_some_iff {a : Address} {c : Cell} :
    ofAddress? a = some c ↔ Region.ofAddress? a = some c.region ∧ c.region.offset a = c.offset := by
  cases c
  simp only [ofAddress?, Option.map_eq_some_iff, mk.injEq]
  constructor
  · rintro ⟨r, region, rfl, offset⟩
    exact ⟨region, offset⟩
  · rintro ⟨region, offset⟩
    exact ⟨_, region, rfl, offset⟩

theorem ofAddress?_of_region {a : Address} {r : Region} (region : Region.ofAddress? a = some r) :
    ofAddress? a = some ⟨r, r.offset a⟩ := ofAddress?_eq_some_iff.2 ⟨region, rfl⟩

/-- The mirrors of the cartridge repeat every 32 MiB. -/
theorem ofAddress?_of_mirror {a : Address} (lo : 0x08000000 ≤ a.toNat) (hi : a.toNat < 0x0E000000) :
    ofAddress? a = some ⟨.cartridge, a.toNat % 0x2000000⟩ := by
  have region : Region.ofAddress? a = some .cartridge := by
    have top := Region.toNat_shiftRight_24 a
    simp only [Region.ofAddress?, ← UInt32.toNat_inj, UInt32.le_iff_toNat_le]
    generalize (a >>> 24).toNat = top at *
    rw [if_neg, if_neg, if_neg, if_neg, if_pos]
    all_goals simp; omega
  have offset : Region.cartridge.offset a = a.toNat % 0x2000000 := by
    rw [Region.offset, UInt32.toNat_and]
    exact Nat.and_two_pow_sub_one_eq_mod a.toNat 25
  exact ofAddress?_eq_some_iff.2 ⟨region, offset⟩

@[simp]
theorem last?_nil (c : Cell) : last? [] c = none := rfl

theorem last?_append (stores more : List (Cell × UInt8)) (c : Cell) :
    last? (stores ++ more) c = (last? more c).or (last? stores c) := by
  rw [last?, List.reverse_append, List.lookup_append]
  rfl

theorem last?_singleton (c : Cell) (v : UInt8) (d : Cell) : last? [(c, v)] d = if c = d then some v else none := by
  by_cases same : c = d
  · subst same
    rw [last?, List.reverse_singleton, List.lookup_cons_self, if_pos rfl]
  · rw [last?, List.reverse_singleton, List.lookup_cons, beq_false_of_ne (Ne.symm same), if_neg same]
    rfl

theorem last?_spread (r : Region) (offset : Nat) (vs : List UInt8) (c : Cell) :
    last? (spread r offset vs) c = if r = c.region ∧ offset ≤ c.offset then vs[c.offset - offset]? else none := by
  induction vs generalizing offset with
  | nil => simp [spread]
  | cons v vs ih =>
    obtain ⟨s, i⟩ := c
    rw [spread, ← List.singleton_append, last?_append, ih, last?_singleton]
    simp only [mk.injEq]
    -- The first byte lies in no cell of the others, so only one of the two look-ups finds something.
    rcases Nat.lt_trichotomy i offset with before | rfl | behind
    · rw [if_neg (by omega), if_neg (by omega), if_neg (by omega)]
      rfl
    · rw [if_neg (by omega), Nat.sub_self]
      simp
    · obtain ⟨k, rfl⟩ := Nat.exists_eq_add_of_lt behind
      rw [if_neg (show ¬(r = s ∧ offset = offset + k + 1) by omega), Option.or_none,
        show offset + k + 1 - (offset + 1) = k by omega, show offset + k + 1 - offset = k + 1 by omega,
        List.getElem?_cons_succ]
      simp [Nat.add_assoc]

/-- A byte that is written is stored in the cell of its address, if that lies in RAM. -/
theorem last?_written (a : Address) (v : UInt8) (c : Cell) :
    last? (Store.written (a, v)) c = if ofAddress? a = some c ∧ c.InRam then some v else none := by
  unfold Store.written
  cases ofAddress? a with
  | none => simp
  | some d =>
    simp only [Option.some.injEq]
    by_cases same : d = c
    · subst same
      simp only [true_and]
      split
      · exact (last?_singleton ..).trans (if_pos rfl)
      · rfl
    · rw [if_neg (mt And.left same)]
      split
      · exact (last?_singleton ..).trans (if_neg same)
      · rfl

/-- Data that are loaded and fit are stored in the cells from that of the address on. -/
theorem last?_loaded {a : Address} {d : Cell} (cell : ofAddress? a = some d) (data : ByteArray) (c : Cell) :
    last? (Store.loaded a data) c =
      if (d.region = .cartridge ∨ d.offset + data.size ≤ d.region.size) ∧
          d.region = c.region ∧ d.offset ≤ c.offset then
        Bytes.at? data (c.offset - d.offset)
      else none := by
  rw [Store.loaded, cell, Bytes.at?_eq_data, ← Array.getElem?_toList]
  dsimp only
  by_cases fits : d.region = .cartridge ∨ d.offset + data.size ≤ d.region.size
  · rw [if_pos fits, last?_spread]
    simp only [fits, true_and]
  · rw [if_neg fits, if_neg (mt And.left fits), last?_nil]

end Cell

/-! ## What a memory holds -/

namespace Bytes

/-- A buffer that is lengthened with zeros reads as before, where the bytes past the end read as zero. -/
theorem getD_padTo (b : ByteArray) (n i : Nat) : (at? (padTo b n) i).getD 0 = (at? b i).getD 0 := by
  rw [at?_padTo]
  split
  · rename_i past
    rw [at?_eq_none_iff.2 past.1]
    rfl
  · rfl

theorem put_of_size_le {b : ByteArray} {i : Nat} (past : b.size ≤ i) (v : UInt8) : put b i v = b := by
  apply ByteArray.ext
  exact Array.setIfInBounds_eq_of_size_le past

theorem at?_store_eq_or (b : ByteArray) (offset : Nat) (data : ByteArray) (i : Nat) :
    at? (store b offset data) i =
      (if offset + data.size ≤ b.size ∧ offset ≤ i then at? data (i - offset) else none).or (at? b i) := by
  rw [at?_store]
  by_cases inside : i < offset + data.size
  · simp only [inside, and_true]
    split
    · rename_i stored
      rw [at?, dif_pos (by omega), Option.some_or]
    · rw [Option.none_or]
  · have past : offset ≤ i → at? data (i - offset) = none := fun le => at?_eq_none_iff.2 (by omega)
    rw [if_neg (by omega)]
    split
    · rename_i both
      rw [past both.2, Option.none_or]
    · rw [Option.none_or]

end Bytes

namespace Memory

/-- The byte in a cell, nothing past the end of its region. -/
def byte? (m : Memory) (c : Cell) : Option UInt8 := Bytes.at? (m.bytes c.region) c.offset

/-- The byte in a cell, zero past the end of its region. -/
def value (m : Memory) (c : Cell) : UInt8 := (m.byte? c).getD 0

theorem read_eq (m : Memory) (a : Address) : m.read a = ((Cell.ofAddress? a).map m.value).getD 0 := by
  unfold read Cell.ofAddress?
  cases Region.ofAddress? a <;> rfl

theorem isWritable_iff {r : Region} : r.isWritable = true ↔ r ≠ .cartridge := bne_iff_ne

/-- A write into RAM changes its cell and no other, and any other write changes none. -/
theorem byte?_write {m : Memory} (full : m.Full) (a : Address) (v : UInt8) (c : Cell) :
    (m.write a v).byte? c = if Cell.ofAddress? a = some c ∧ c.InRam then some v else m.byte? c := by
  rw [byte?, byte?, write]
  cases region : Region.ofAddress? a with
  | none =>
    have unmapped : Cell.ofAddress? a = none := by rw [Cell.ofAddress?, region]; rfl
    rw [if_neg fun both => by simp [unmapped] at both]
  | some r =>
    obtain ⟨s, i⟩ := c
    rw [Cell.ofAddress?_of_region region]
    simp only [Option.some.injEq, Cell.mk.injEq, Cell.InRam]
    split
    · rename_i ram
      rw [bytes_modify]
      by_cases same : r = s
      · subst same
        rw [if_pos rfl, Bytes.at?_put, full r ram]
        refine if_congr ⟨?_, ?_⟩ rfl rfl
        · rintro ⟨rfl, inside⟩
          exact ⟨⟨rfl, rfl⟩, isWritable_iff.1 ram, inside⟩
        · rintro ⟨⟨-, rfl⟩, -, inside⟩
          exact ⟨rfl, inside⟩
      · rw [if_neg same, if_neg (fun all => same all.1.1)]
    · rename_i rom
      rw [if_neg]
      rintro ⟨⟨rfl, -⟩, ram, -⟩
      exact rom (isWritable_iff.2 ram)

theorem modify_eq_self {m : Memory} {r : Region} {f : ByteArray → ByteArray} (h : f (m.bytes r) = m.bytes r) :
    m.modify r f = m := by
  cases r <;> rw [bytes] at h <;> rw [modify, h]

theorem value_modify (m : Memory) (r : Region) (f : ByteArray → ByteArray) (c : Cell) :
    (m.modify r f).value c = if r = c.region then (Bytes.at? (f (m.bytes c.region)) c.offset).getD 0 else m.value c := by
  rw [value, byte?, bytes_modify]
  split <;> rfl

theorem load_eq (m : Memory) {a : Address} {r : Region} (region : Region.ofAddress? a = some r) (data : ByteArray) :
    m.load a data = m.modify r fun b =>
      Bytes.store (if r = .cartridge then Bytes.padTo b (r.offset a + data.size) else b) (r.offset a) data := by
  rw [load, region]
  cases r <;> rfl

/-- A load leaves in every cell the last byte that it stores there. -/
theorem value_load {m : Memory} (full : m.Full) (a : Address) (data : ByteArray) (c : Cell) :
    (m.load a data).value c = (Cell.last? (Store.loaded a data) c).getD (m.value c) := by
  cases region : Region.ofAddress? a with
  | none =>
    rw [load, region, Store.loaded, Cell.ofAddress?, region]
    rfl
  | some r =>
    rw [load_eq m region, value_modify, Cell.last?_loaded (Cell.ofAddress?_of_region region)]
    obtain ⟨s, i⟩ := c
    dsimp only
    by_cases same : r = s
    · subst same
      rw [if_pos rfl, Bytes.at?_store_eq_or]
      simp only [true_and]
      by_cases rom : r = .cartridge
      · subst rom
        simp only [if_true, true_or, true_and, Bytes.size_padTo, Nat.le_max_right, Option.getD_or, Bytes.getD_padTo]
        rfl
      · simp only [rom, if_false, false_or, full r (isWritable_iff.2 rom), Option.getD_or]
        rfl
    · rw [if_neg same, if_neg fun all => same all.2.1]
      rfl

/-- Data that do not fit into RAM are not loaded at all. -/
theorem load_of_misfit {m : Memory} (full : m.Full) {a : Address} {c : Cell} (cell : Cell.ofAddress? a = some c)
    (ram : c.region ≠ .cartridge) {data : ByteArray} (misfit : c.region.size < c.offset + data.size) :
    m.load a data = m := by
  obtain ⟨region, offset⟩ := Cell.ofAddress?_eq_some_iff.1 cell
  have size := full _ (isWritable_iff.2 ram)
  rw [load_eq m region, offset]
  refine modify_eq_self ?_
  rw [if_neg ram, Bytes.store, if_neg (by omega)]

/-- What is loaded into the cartridge lengthens it as far as the data reach. -/
theorem bytes_load {m : Memory} {a : Address} {c : Cell} (cell : Cell.ofAddress? a = some c)
    (rom : c.region = .cartridge) (data : ByteArray) : (m.load a data).bytes .cartridge =
      Bytes.store (Bytes.padTo (m.bytes .cartridge) (c.offset + data.size)) c.offset data := by
  obtain ⟨region, offset⟩ := Cell.ofAddress?_eq_some_iff.1 cell
  rw [rom] at region offset
  rw [load_eq m region, bytes_modify, if_pos rfl, if_pos rfl, offset]

theorem byte?_load {m : Memory} {a : Address} {c : Cell} (cell : Cell.ofAddress? a = some c) (rom : c.region = .cartridge)
    (data : ByteArray) (i : Nat) : (m.load a data).byte? ⟨.cartridge, i⟩ =
      if c.offset ≤ i ∧ i < c.offset + data.size then Bytes.at? data (i - c.offset)
      else if (m.bytes .cartridge).size ≤ i ∧ i < c.offset then some 0
      else m.byte? ⟨.cartridge, i⟩ := by
  rw [byte?, bytes_load cell rom, Bytes.at?_store, Bytes.size_padTo, Bytes.at?_padTo, byte?]
  dsimp only
  by_cases stored : c.offset ≤ i ∧ i < c.offset + data.size
  · rw [if_pos ⟨Nat.le_max_right .., stored⟩, if_pos stored]
  · rw [if_neg (mt And.right stored), if_neg stored]
    exact if_congr (by omega) rfl rfl

theorem writable_iff {m : Memory} (full : m.Full) {a : Address} : m.Writable a ↔ Cell.Maps a := by
  simp only [Writable, Cell.Maps, Option.mem_def, Cell.ofAddress?_eq_some_iff, Cell.InRam, ← isWritable_iff]
  constructor
  · rintro ⟨r, region, ram, inside⟩
    exact ⟨⟨r, r.offset a⟩, ⟨region, rfl⟩, ram, full r ram ▸ inside⟩
  · rintro ⟨c, ⟨region, offset⟩, ram, inside⟩
    exact ⟨c.region, region, ram, (full c.region ram).symm ▸ offset ▸ inside⟩

theorem write_of_not_maps {m : Memory} (full : m.Full) {a : Address} (unmapped : ¬Cell.Maps a) (v : UInt8) :
    m.write a v = m := by
  rw [← writable_iff full] at unmapped
  unfold write
  split
  · rename_i r region
    split
    · rename_i ram
      refine modify_eq_self (Bytes.put_of_size_le ?_ v)
      by_contra inside
      exact unmapped ⟨r, region, ram, Nat.lt_of_not_le inside⟩
    · rfl
  · rfl

end Memory

end Redraw

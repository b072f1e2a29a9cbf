import Redraw.Proofs.Canvas.Blit
import Redraw.Proofs.Engine.Hooks
import Redraw.Proofs.Memory

/-!
# Copying a screen

A game that decompressed a picture of the size of the screen has it copied into the frame in the back. Either the whole
picture lies in work or internal RAM that the host hands out, and then the frame shows it, or the frame keeps its indices
and the copy is reported as skipped (`V3d.hook_copies_or_skips`).
-/

namespace Redraw

/-! ## Pictures in memory -/

/-- The host hands out work or internal RAM, and from the address on the region has as many bytes as the screen has
pixels. -/
def Machine.OffersBitmap (m : Machine) (a : Address) : Prop :=
  ∃ r bytes, (r = .workRam ∨ r = .internalRam) ∧ Region.ofAddress? a = some r ∧ m.region? r = some bytes ∧
    r.offset a + Screen.area ≤ bytes.size

namespace V3d

variable {m : Machine} {a : Address}

/-- The bytes of an offered picture are those that the machine reads from its address on. -/
theorem screenBitmap_of_offers (full : m.memory.Full) (offers : m.OffersBitmap a) :
    ∃ bitmap, screenBitmap m a = .ok bitmap ∧
      ∀ i, i < Screen.area → Bytes.at? bitmap i = some (m.readByte (a + .ofNat i)) := by
  obtain ⟨r, bytes, copied, region, handed, fits⟩ := offers
  have ram : r.isWritable = true := by
    rcases copied with rfl | rfl <;> rfl
  have small : r.size ≤ 0x1000000 := by
    rcases copied with rfl | rfl <;> decide
  have taken : bytes = m.memory.bytes r := by
    unfold Machine.region? at handed
    split at handed
    · exact (Option.some.inj handed).symm
    · cases handed
  have slice := Bytes.slice?_eq_some_iff.2 ⟨fits, rfl⟩
  refine ⟨_, screenBitmap_eq_ok_iff.2 ⟨r, bytes, copied, region, handed, slice⟩, fun i lt => ?_⟩
  have size := full r ram
  rw [taken, size] at fits
  obtain ⟨region', offset⟩ := Region.offset_add ram region (i := i) (by omega)
  have backed : r.offset a + i < (m.memory.bytes r).size := by omega
  rw [Bytes.at?_slice? slice, if_pos lt, taken, Machine.readByte, Memory.read, region']
  simp only [offset, Bytes.at?, dif_pos backed, Option.getD_some]

theorem screenBitmap_of_not_offers (missing : ¬m.OffersBitmap a) : ∃ error, screenBitmap m a = .error error := by
  cases read : screenBitmap m a with
  | error error => exact ⟨error, rfl⟩
  | ok bitmap =>
    obtain ⟨r, bytes, copied, region, handed, slice⟩ := screenBitmap_eq_ok_iff.1 read
    exact absurd ⟨r, bytes, copied, region, handed, (Bytes.slice?_eq_some_iff.1 slice).1⟩ missing

/-! ## The copy -/

variable {c : Context}

/-- At every output position a picture shows the byte that the machine holds for its block. -/
def ShowsBitmap (d : Canvas) (m : Machine) (a : Address) : Prop :=
  ∀ x y, Screen.Contains d.scale x y →
    d.pixel? x y = some (m.readByte (a + addressOf (Screen.width * (y / d.scale) + x / d.scale)))

theorem copyScreen_of_offers (sized : c.frames.Sized) (full : m.memory.Full) (back : Frame) (offers : m.OffersBitmap a) :
    ∃ d : Canvas, d.scale = c.frames.scale ∧ ShowsBitmap d m a ∧
      copyScreen c m back a = .ok ({ c with frames := c.frames.setCanvas back d }, [.copyScreen a back]) := by
  obtain ⟨bitmap, read, bytes⟩ := screenBitmap_of_offers full offers
  have size := size_screenBitmap read
  obtain ⟨d, copied, scale⟩ := Canvas.blit_of_size (c := ⟨c.frames.scale, _, sized.indexed back⟩) sized.pos size
  refine ⟨d, scale, fun x y h => ?_, ?_⟩
  · rw [scale] at h ⊢
    have block := Canvas.block_contains sized.pos h
    have inside := Screen.index?_lt (Screen.index?_eq_some block)
    have index : Screen.width * (y / c.frames.scale) + x / c.frames.scale =
        (((y / c.frames.scale).toNat * Screen.width + (x / c.frames.scale).toNat : Nat) : Int) := by
      rw [Int.natCast_add, Int.natCast_mul, Int.toNat_of_nonneg block.1, Int.toNat_of_nonneg block.2.2.1, Int.mul_comm]
    rw [Canvas.pixel?_blit copied size sized.pos h, bytes _ (by simpa using inside), index]
    rfl
  · unfold copyScreen
    rw [read]
    dsimp only
    rw [sized.canvas_eq]
    change (Canvas.blit _ bitmap >>= fun canvas => _) = _
    rw [copied]
    rfl

theorem copyScreen_of_not_offers (c : Context) (back : Frame) (missing : ¬m.OffersBitmap a) :
    ∃ error, copyScreen c m back a = .ok (c, [.copySkipped error]) := by
  obtain ⟨error, read⟩ := screenBitmap_of_not_offers missing
  refine ⟨error, ?_⟩
  unfold copyScreen
  rw [read]
  rfl

/-- What a hit on the address of a screen copy returns, once the copy does. -/
theorem hook_copyScreen {e : V3d} {game : Game} (active : e.state = .active game) (config : Config) {pc pointer : Address}
    (called : game.routineAt? pc = some (.copyScreen pointer)) {left : Context × List Event}
    (copied : copyScreen (c.setActive (Frame.ofBit (m.readByte game.activeFrame != 0)).other false) m
      (Frame.ofBit (m.readByte game.activeFrame != 0)).other (m.readWord pointer) = .ok left) :
    e.hook config c m pc =
      .ok (e, left.1, .routine (.copyScreen pointer) (Frame.ofBit (m.readByte game.activeFrame != 0)) :: left.2) := by
  unfold hook
  rw [active]
  dsimp only
  rw [called]
  dsimp only
  rw [run, perform, copied]
  rfl

/-- **All or nothing.** A hit on the address of a screen copy marks the frame in the back as holding no 3D content, and
changes nothing else but the indices of that frame. When the word at the operand of the copy points to a picture, the frame
shows all of it and there is no warning; otherwise the indices are the same as before, and one warning says so. -/
theorem hook_copies_or_skips {e : V3d} {game : Game} (active : e.state = .active game) (sized : c.frames.Sized)
    (config : Config) (full : m.memory.Full) {pc pointer : Address}
    (called : game.routineAt? pc = some (.copyScreen pointer)) :
    Returns (e.hook config c m pc) fun left =>
      let back := (Frame.ofBit (m.readByte game.activeFrame != 0)).other
      let source := m.readWord pointer
      let emptied := c.setActive back false
      let warnings := left.2.2.filter (·.level = .warn)
      left.1 = e ∧
      (∃ pixels, left.2.1 =
        { emptied with frames := emptied.frames.modify back ({ · with indexed := pixels }) }) ∧
      (m.OffersBitmap source →
        (∃ d, left.2.1.frames.canvas back = .ok d ∧ d.scale = c.frames.scale ∧ ShowsBitmap d m source) ∧
          warnings = []) ∧
      (¬m.OffersBitmap source →
        left.2.1 = emptied ∧ ∃ warning, warnings = [warning] ∧ warning.message = "screen copy skipped") := by
  have hooked {left : Context × List Event} := @hook_copyScreen m c e game active config pc pointer called left
  generalize (Frame.ofBit (m.readByte game.activeFrame != 0)).other = back at hooked ⊢
  have marked := Context.evolves_setActive sized back false
  by_cases offers : m.OffersBitmap (m.readWord pointer)
  · obtain ⟨d, scale, shows, copied⟩ := copyScreen_of_offers marked.frames.sized full back offers
    refine ⟨_, hooked copied, rfl, ⟨d.pixels, rfl⟩, fun _ => ⟨⟨d, ?_, ?_, shows⟩, rfl⟩,
      fun missing => absurd offers missing⟩
    · exact Frames.canvas_setCanvas back scale
    · exact scale.trans marked.frames.scale
  · obtain ⟨error, skipped⟩ := copyScreen_of_not_offers (c.setActive back false) back offers
    refine ⟨_, hooked skipped, rfl, ⟨(c.frames.get back).indexed, ?_⟩, fun offered => absurd offered offers,
      fun _ => ⟨rfl, _, rfl, rfl⟩⟩
    cases back <;> rfl

/-- With the top byte of a pointer into work RAM set and a picture there that has one pixel, a copy at scale two shows
that pixel as a block. -/
theorem hook_copies_or_skips_pixel :
    let e : V3d := ⟨games.map .game, .active asterix⟩
    let c := Context.blank 2
    let pointing := (Machine.withCartridge .empty true).writeByte 0x03006A03 2
    let m := pointing.writeByte 0x020002D5 7
    e.state = .active asterix ∧ c.frames.Sized ∧ m.memory.Full ∧
      asterix.routineAt? 0x03006834 = some (.copyScreen 0x03006A00) ∧
      Returns (e.hook .default c m 0x03006834) fun left =>
        ∃ d, left.2.1.frames.canvas .one = .ok d ∧ d.pixel? 11 7 = some 7 ∧ d.pixel? 12 7 = some 0 := by
  intro e c pointing m
  have sized : c.frames.Sized := Frames.sized_blank 2
  have rest : (Machine.withCartridge .empty true).memory.Full := Memory.full_withCartridge .empty
  have pointed : pointing.memory.Full := rest.write 0x03006A03 2
  have full : m.memory.Full := pointed.write 0x020002D5 7
  have called : asterix.routineAt? 0x03006834 = some (.copyScreen 0x03006A00) := by decide
  have stored (a : Address) (ram : Region.ofAddress? a ≠ some .cartridge) :
      m.readByte a = if a = 0x020002D5 then 7 else if a = 0x03006A03 then 2 else 0 := by
    split
    · rename_i same
      rw [same]
      exact Machine.readByte_writeByte_self (pointed.writable (r := .workRam) rfl (by decide) (by decide)) 7
    · rename_i apart
      rw [Machine.readByte_writeByte_of_ne (Ne.symm apart)]
      split
      · rename_i same
        rw [same]
        exact Machine.readByte_writeByte_self (rest.writable (r := .internalRam) rfl (by decide) (by decide)) 2
      · rename_i apart
        rw [Machine.readByte_writeByte_of_ne (Ne.symm apart), Machine.readByte_withCartridge ram]
  have shown : m.readByte asterix.activeFrame = 0 := stored _ (by decide)
  have source : m.readWord 0x03006A00 = 0x02000000 := by
    unfold Machine.readWord
    rw [stored _ (by decide), stored _ (by decide), stored _ (by decide), stored _ (by decide)]
    decide
  have offers : m.OffersBitmap 0x02000000 := by
    refine ⟨.workRam, m.memory.bytes .workRam, .inl rfl, by decide, rfl, ?_⟩
    rw [full .workRam rfl]
    decide
  refine ⟨rfl, sized, full, called, ?_⟩
  refine (hook_copies_or_skips (e := e) rfl sized .default full called).mono fun left all => ?_
  rw [shown, source] at all
  obtain ⟨-, -, copies, -⟩ := all
  obtain ⟨⟨d, canvas, scale, shows⟩, -⟩ := copies offers
  have scale : d.scale = 2 := scale
  refine ⟨d, canvas, ?_, ?_⟩
  · rw [shows 11 7 (by rw [scale]; decide), scale, stored _ (by decide)]
    rfl
  · rw [shows 12 7 (by rw [scale]; decide), scale, stored _ (by decide)]
    rfl

end V3d

end Redraw

import Redraw.Engine.Drome
import Redraw.Proofs.Drome.Walk
import Redraw.Proofs.Engine.Publishing
import Redraw.Proofs.Frames
import Redraw.Proofs.Memory

/-!
# What the rasterizer leaves behind

A pass stores statuses of sprites twice: while it walks over the stream and when it fills the holes in. Each status has
its own half word in the table of sprites, so the last one that is stored for a sprite counts
(`spriteStatus_setStatuses`). The pass ends with no hole open, and on frames that fit their scale the rasterizer always
returns (`rasterize_returns`).
-/

namespace Redraw.Drome

/-! ## The table of sprites -/

namespace Scene

/-- The address of a byte of the table of sprites. -/
def InTable (s : Scene) (a : Address) : Prop := ∃ (i : UInt8) (offset : UInt32), offset < 8 ∧ a = s.spriteAddress i + offset

/-- RAM answers to the whole table of sprites. -/
def TableWritable (s : Scene) (m : Machine) : Prop := ∀ a, s.InTable a → m.memory.Writable a

/-- What the game is told about a sprite. -/
def spriteStatus (s : Scene) (m : Machine) (i : UInt8) : UInt16 := m.readHalf (s.spriteAddress i + 6)

/-- Stores statuses one after the other. -/
def setStatuses (s : Scene) (m : Machine) (statuses : List (UInt8 × UInt16)) : Machine :=
  statuses.foldl (fun m status => s.setSpriteStatus m status.1 status.2) m

variable {s : Scene} {m : Machine}

theorem entry_unique {i j : UInt8} {o o' : UInt32} (ho : o < 8) (ho' : o' < 8)
    (same : s.spriteAddress i + o = s.spriteAddress j + o') : i = j ∧ o = o' := by
  have hi := i.toNat_lt
  have hj := j.toNat_lt
  have flat := congrArg UInt32.toNat same
  rw [UInt32.lt_iff_toNat_lt] at ho ho'
  simp only [spriteAddress, UInt32.toNat_add, UInt32.toNat_mul, UInt8.toNat_toUInt32, UInt32.reduceToNat] at flat ho ho'
  have index : i.toNat = j.toNat := by omega
  have offset : o.toNat = o'.toNat := by omega
  exact ⟨UInt8.toNat_inj.1 index, UInt32.toNat_inj.1 offset⟩

theorem status_add_one (s : Scene) (i : UInt8) : s.spriteAddress i + 6 + 1 = s.spriteAddress i + 7 := by
  rw [UInt32.add_assoc]
  rfl

theorem inTable_status (s : Scene) (i : UInt8) :
    s.InTable (s.spriteAddress i + 6) ∧ s.InTable (s.spriteAddress i + 6 + 1) :=
  ⟨⟨i, 6, by decide, rfl⟩, i, 7, by decide, s.status_add_one i⟩

theorem tableWritable_setSpriteStatus (ram : s.TableWritable m) (i : UInt8) (v : UInt16) :
    s.TableWritable (s.setSpriteStatus m i v) :=
  fun a inTable => Machine.writable_writeHalf.2 (ram a inTable)

theorem spriteStatus_setSpriteStatus_self (ram : s.TableWritable m) (i : UInt8) (v : UInt16) :
    s.spriteStatus (s.setSpriteStatus m i v) i = v :=
  Machine.readHalf_writeHalf_self (ram _ (s.inTable_status i).1) (ram _ (s.inTable_status i).2) v

theorem spriteStatus_setSpriteStatus_of_ne {i j : UInt8} (other : i ≠ j) (m : Machine) (v : UInt16) :
    s.spriteStatus (s.setSpriteStatus m i v) j = s.spriteStatus m j := by
  have apart {o o' : UInt32} (ho : o < 8) (ho' : o' < 8) : s.spriteAddress i + o ≠ s.spriteAddress j + o' :=
    fun same => other (entry_unique ho ho' same).1
  have byte (o : UInt32) (ho : o < 8) :
      (s.setSpriteStatus m i v).readByte (s.spriteAddress j + o) = m.readByte (s.spriteAddress j + o) := by
    refine Machine.readByte_writeHalf_of_ne (apart (by decide) ho) ?_ m v
    rw [status_add_one]
    exact apart (by decide) ho
  unfold spriteStatus Machine.readHalf
  rw [status_add_one, byte 6 (by decide), byte 7 (by decide)]

theorem spriteStatus_writeByte {a : Address} (out : ¬s.InTable a) (m : Machine) (v : UInt8) (i : UInt8) :
    s.spriteStatus (m.writeByte a v) i = s.spriteStatus m i := by
  have apart {b : Address} (inTable : s.InTable b) : a ≠ b := fun same => out (same ▸ inTable)
  unfold spriteStatus Machine.readHalf
  rw [Machine.readByte_writeByte_of_ne (apart (s.inTable_status i).1),
    Machine.readByte_writeByte_of_ne (apart (s.inTable_status i).2)]

/-! ### Statuses stored one after the other -/

theorem setStatuses_append (s : Scene) (m : Machine) (statuses more : List (UInt8 × UInt16)) :
    s.setStatuses m (statuses ++ more) = s.setStatuses (s.setStatuses m statuses) more := List.foldl_append

theorem tableWritable_setStatuses (ram : s.TableWritable m) (statuses : List (UInt8 × UInt16)) :
    s.TableWritable (s.setStatuses m statuses) := by
  induction statuses generalizing m with
  | nil => exact ram
  | cons status statuses ih => exact ih (tableWritable_setSpriteStatus ram status.1 status.2)

theorem spriteStatus_setStatuses_of_not_mem {i : UInt8} {statuses : List (UInt8 × UInt16)}
    (none_named : ∀ status ∈ statuses, status.1 ≠ i) (m : Machine) :
    s.spriteStatus (s.setStatuses m statuses) i = s.spriteStatus m i := by
  induction statuses generalizing m with
  | nil => rfl
  | cons status statuses ih =>
    rw [List.forall_mem_cons] at none_named
    exact (ih none_named.2 _).trans (spriteStatus_setSpriteStatus_of_ne none_named.1 m status.2)

/-- The last status that is stored for a sprite counts. -/
theorem spriteStatus_setStatuses {i : UInt8} {later : List (UInt8 × UInt16)} (ram : s.TableWritable m)
    (earlier : List (UInt8 × UInt16)) (v : UInt16) (last : ∀ status ∈ later, status.1 ≠ i) :
    s.spriteStatus (s.setStatuses m (earlier ++ (i, v) :: later)) i = v := by
  rw [setStatuses_append]
  exact (spriteStatus_setStatuses_of_not_mem last _).trans
    (spriteStatus_setSpriteStatus_self (tableWritable_setStatuses ram earlier) i v)

end Scene

/-! ## Filling in -/

/-- The statuses that are stored when holes are filled in. -/
def reported (holes : List Hole) (c : Canvas) : List (UInt8 × UInt16) :=
  (Punched.unwind holes c).1.map fun report => (report.1, report.2.code)

theorem Pass.drain_spec (p : Pass) (s : Scene) :
    (p.drain s).canvas = (Punched.unwind p.holes.toList.reverse p.canvas).2 ∧ (p.drain s).holes.toList = [] ∧
      (p.drain s).machine = s.setStatuses p.machine (reported p.holes.toList.reverse p.canvas) ∧
      (p.drain s).events = p.events := by
  obtain ⟨reports, canvas, empty⟩ := Punched.drain_eq_unwind ⟨p.canvas, p.holes⟩
  refine ⟨canvas, empty, ?_, rfl⟩
  rw [Scene.setStatuses, reported, List.foldl_map, ← reports]
  rfl

/-! ## A whole pass -/

/-- The pass at the end of the walk over the stream of a scene. -/
def walked (s : Scene) (c : Canvas) (holes : Holes) (m : Machine) : Pass :=
  (Pass.walk s Pass.maxRecords ⟨s.stream⟩ ⟨c, holes, m, #[]⟩).1

/-- The occluders that the walk over the stream of a scene meets. -/
def encountered (s : Scene) (c : Canvas) (holes : Holes) (m : Machine) : List Visit :=
  Pass.occluders s Pass.maxRecords ⟨s.stream⟩ ⟨c, holes, m, #[]⟩

/-- The machine when the stream has been hidden from the game, if the policy says so. -/
def hideStream (policy : Policy) (s : Scene) (m : Machine) : Machine :=
  if policy.disableRasterizer then m.writeByte s.stream 0 else m

/-- What a pass does after its walk: the stream is hidden, and the holes are filled in. -/
def finish (policy : Policy) (s : Scene) (p : Pass) : Pass :=
  Pass.drain { p with machine := hideStream policy s p.machine } s

theorem finish_spec (policy : Policy) (s : Scene) (p : Pass) :
    (finish policy s p).canvas = (Punched.unwind p.holes.toList.reverse p.canvas).2 ∧
      (finish policy s p).holes.toList = [] ∧
      (finish policy s p).machine =
        s.setStatuses (hideStream policy s p.machine) (reported p.holes.toList.reverse p.canvas) ∧
      (finish policy s p).events = p.events :=
  Pass.drain_spec { p with machine := hideStream policy s p.machine } s

theorem pass_eq (policy : Policy) (s : Scene) (c : Canvas) (holes : Holes) (m : Machine) :
    let result := Pass.walk s Pass.maxRecords ⟨s.stream⟩ ⟨c, holes, m, #[]⟩
    pass policy s c holes m =
      finish policy s (result.1.log (.rasterized result.2 s.frame result.1.holes.size)) := by
  intro result
  unfold pass finish hideStream
  cases policy.disableRasterizer <;> rfl

theorem pass_spec (policy : Policy) (s : Scene) (c : Canvas) (holes : Holes) (m : Machine) :
    let w := walked s c holes m
    let p := pass policy s c holes m
    p.canvas = (Punched.unwind w.holes.toList.reverse w.canvas).2 ∧ p.holes.toList = [] ∧
      p.machine = s.setStatuses (hideStream policy s w.machine) (reported w.holes.toList.reverse w.canvas) ∧
      p.IsHandled := by
  intro w p
  obtain ⟨canvas, empty, machine, events⟩ := finish_spec policy s (w.log _)
  have handled : w.IsHandled := Pass.isHandled_walk (p := ⟨c, holes, m, #[]⟩) Event.allHandled_nil s _ _
  rw [show finish policy s (w.log _) = p from (pass_eq policy s c holes m).symm] at canvas empty machine events
  refine ⟨canvas, empty, machine, ?_⟩
  rw [Pass.IsHandled, events]
  exact Pass.isHandled_log id handled

theorem scale_pass (policy : Policy) (s : Scene) (c : Canvas) (holes : Holes) (m : Machine) :
    (pass policy s c holes m).canvas.scale = c.scale := by
  rw [(pass_spec policy s c holes m).1, Punched.scale_unwind]
  exact (Pass.walk_spec _ _ _ s).2.1

/-- The buffer of the frame that a pass drew, once it is committed. -/
def Pass.buffer (p : Pass) (outlines : List Outline) (active : Bool) : Buffer where
  indexed := p.canvas.pixels
  color := (Commit.mk p.machine p.canvas outlines).picture.bytes
  active := active

theorem Pass.evolves_buffer {f : Frames} (sized : f.Sized) {p : Pass} (scale : p.canvas.scale = f.scale) (i : Frame)
    (outlines : List Outline) (active : Bool) : f.Evolves (f.modify i fun _ => p.buffer outlines active) := by
  refine sized.modify i ?_ ?_
  · rw [sized.indexed, ← scale]
    exact p.canvas.size_eq
  · rw [sized.color, ← scale]
    exact (Rgba.size_eq _).trans (by rw [Commit.scale_picture])

/-- On frames that fit their scale the rasterizer replaces the whole buffer of one frame, and empties the queue. -/
theorem rasterize_eq {c : Context} (sized : c.frames.Sized) (policy : Policy) (holes : Holes) (m : Machine) :
    let s := Scene.read m (m.register 0)
    let p := pass policy s (Canvas.blank c.frames.scale) holes m
    rasterize policy holes c m = .ok ⟨p.holes,
      { c with
        frames := c.frames.modify s.frame fun _ => p.buffer c.outlines ((⟨s.stream⟩ : Record).tag m != 0)
        outlines := [] },
      p.machine, p.events.toList⟩ := by
  intro s p
  unfold rasterize
  extract_lets first d
  have canvas : d.frames.canvas s.frame = .ok (Canvas.blank c.frames.scale) :=
    sized.canvas_clear s.frame (first.tag m != 0)
  have scale : p.canvas.scale = d.frames.scale :=
    (scale_pass ..).trans ((Frames.scale_modify ..).trans (Frames.scale_modify ..)).symm
  have drawn : (d.frames.setCanvas s.frame p.canvas).canvas s.frame = .ok p.canvas := Frames.canvas_setCanvas _ scale
  have buffer (i : Frame) (active : Bool) :
      (((c.frames.clear i).setActive i active).setCanvas i p.canvas).modify i ({ · with
        color := (Commit.mk p.machine p.canvas c.outlines).picture.bytes }) =
      c.frames.modify i fun _ => p.buffer c.outlines active := by
    cases i <;> rfl
  rw [canvas]
  change (Context.commit { d with frames := d.frames.setCanvas s.frame p.canvas } p.machine s.frame >>= fun e => _) = _
  rw [Context.commit, Frames.commit, drawn, ← buffer]
  rfl

/-- On frames that fit their scale the rasterizer returns what its pass over a blank canvas leaves behind. -/
theorem rasterize_returns {c : Context} (sized : c.frames.Sized) (policy : Policy) (holes : Holes) (m : Machine) :
    Returns (rasterize policy holes c m) fun o =>
      let s := Scene.read m (m.register 0)
      let p := pass policy s (Canvas.blank c.frames.scale) holes m
      o.holes = p.holes ∧ o.machine = p.machine ∧ o.events = p.events.toList ∧ c.Evolves o.context ∧
        (o.context.frames.get s.frame).indexed = p.canvas.pixels := by
  refine ⟨_, rasterize_eq sized policy holes m, rfl, rfl, rfl, ⟨rfl, ?_⟩, ?_⟩
  · exact Pass.evolves_buffer sized (scale_pass ..) _ _ _
  · rw [Frames.get_modify, if_pos rfl]
    rfl

/-! ## Hits on the trampoline -/

theorem allHandled_transform (policy : Policy) (m : Machine) : Event.AllHandled (transform policy m).2 := by
  refine Event.allHandled_append (fun e mem => ?_) (Event.allHandled_cons id Event.allHandled_nil)
  obtain ⟨o, -, rfl⟩ := List.mem_map.1 mem
  exact id

theorem hook_of_rasterize {e : Drome} {a : Active} (active : e.active = some a) {m : Machine}
    (stage : m.readWord a.profile.stage = a.profile.rasterize) (c : Context) :
    e.hook c m a.profile.trampoline = rasterize a.policy e.holes c m := by
  rw [Drome.hook, active]
  simp [Drome.runStage, stage]

theorem runStage_returns {e : Drome} {c : Context} (closed : e.holes.toList = []) (sized : c.frames.Sized) (a : Active)
    (m : Machine) :
    Returns (e.runStage a c m) fun o => o.holes.toList = [] ∧ c.Evolves o.context ∧ Event.AllHandled o.events := by
  have same := Context.evolves_refl sized
  unfold Drome.runStage
  dsimp only
  split
  · refine (rasterize_returns sized a.policy e.holes m).mono fun o left => ?_
    obtain ⟨-, empty, -, handled⟩ := pass_spec a.policy (Scene.read m (m.register 0)) (Canvas.blank c.frames.scale)
      e.holes m
    obtain ⟨holes, -, events, context, -⟩ := left
    exact ⟨holes ▸ empty, context, events ▸ handled⟩
  · split
    · split
      · exact .pure ⟨closed, same, allHandled_transform a.policy m⟩
      · exact .pure ⟨closed, same, Event.allHandled_nil⟩
    · exact .pure ⟨closed, same, Event.allHandled_cons id Event.allHandled_nil⟩

theorem hook_returns {e : Drome} {c : Context} (closed : e.holes.toList = []) (sized : c.frames.Sized) (m : Machine)
    (pc : Address) :
    Returns (e.hook c m pc) fun o => o.holes.toList = [] ∧ c.Evolves o.context ∧
      ((∃ a, e.active = some a ∧ a.profile.trampoline = pc) → Event.AllHandled o.events) := by
  unfold Drome.hook
  split
  · rename_i a active
    split
    · exact (runStage_returns closed sized a m).mono fun o left => ⟨left.1, left.2.1, fun _ => left.2.2⟩
    · rename_i other
      refine .pure ⟨closed, Context.evolves_refl sized, ?_⟩
      rintro ⟨b, active', same⟩
      rw [active, Option.some.injEq] at active'
      exact absurd (active' ▸ same) other
  · rename_i inactive
    refine .pure ⟨closed, Context.evolves_refl sized, ?_⟩
    rintro ⟨b, active, -⟩
    rw [inactive] at active
    cases active

end Redraw.Drome

import Redraw.Proofs.Drome.Verdicts

/-!
# What a hook writes

A hook of the rasterizer stores statuses of sprites and may hide the stream, one of the transform may hide the objects,
and nothing else is written (`hook_footprint`). Writes are told as the list of bytes that are written one after the other,
so it does not matter what is read from them meanwhile.
-/

namespace Redraw.Drome

/-! ## Supported games -/

theorem Reachable.profile_mem {e : Drome} (reachable : Reachable e) {a : Active} (active : e.active = some a) :
    a.profile ∈ profiles := by
  induction reachable generalizing a with
  | idle => cases active
  | init config c title _ ih =>
    unfold Drome.init at active
    split at active
    · rename_i profile found
      cases active
      exact List.mem_of_find?_eq_some found
    · exact ih active
  | hook _ _ _ ih => exact ih active

theorem transform_ne_rasterize {profile : Profile} (supported : profile ∈ profiles) :
    profile.transform ≠ profile.rasterize := by
  revert profile
  decide

/-! ## Statuses as bytes -/

namespace Scene

/-- The bytes that store a status. -/
def statusBytes (s : Scene) (status : UInt8 × UInt16) : List (Address × UInt8) :=
  [(s.spriteAddress status.1 + 6, status.2.toUInt8), (s.spriteAddress status.1 + 7, (status.2 >>> 8).toUInt8)]

variable {s : Scene} {m : Machine}

theorem setSpriteStatus_eq (s : Scene) (m : Machine) (status : UInt8 × UInt16) :
    s.setSpriteStatus m status.1 status.2 = m.writeBytes (s.statusBytes status) := by
  rw [setSpriteStatus, Machine.writeHalf, status_add_one]
  rfl

theorem setStatuses_eq (s : Scene) (m : Machine) (statuses : List (UInt8 × UInt16)) :
    s.setStatuses m statuses = m.writeBytes (statuses.flatMap s.statusBytes) := by
  induction statuses generalizing m with
  | nil => rfl
  | cons status statuses ih =>
    rw [List.flatMap_cons, Machine.writeBytes_append, ← setSpriteStatus_eq]
    exact ih _

/-- The address of a byte of the status of a sprite. -/
def IsStatus (s : Scene) (i : UInt8) (a : Address) : Prop :=
  a = s.address + 96 + 8 * i.toUInt32 + 6 ∨ a = s.address + 96 + 8 * i.toUInt32 + 7

theorem isStatus_of_mem {status : UInt8 × UInt16} {write : Address × UInt8} (mem : write ∈ s.statusBytes status) :
    s.IsStatus status.1 write.1 := by
  rw [IsStatus, UInt32.mul_comm]
  simp only [statusBytes, List.mem_cons, List.not_mem_nil, or_false] at mem
  rcases mem with rfl | rfl
  · exact .inl rfl
  · exact .inr rfl

end Scene

/-! ## Passes -/

theorem hideStream_eq (policy : Policy) (s : Scene) (m : Machine) :
    hideStream policy s m = m.writeBytes (if policy.disableRasterizer then [(s.stream, 0)] else []) := by
  unfold hideStream
  split <;> rfl

theorem sprite_of_mem_provisional {s : Scene} {visits : List Visit} {status : UInt8 × UInt16}
    (mem : status ∈ provisional s visits) : ∃ v ∈ visits, v.sprite = status.1 := by
  obtain ⟨v, met, rfl⟩ := List.mem_map.1 mem
  exact ⟨v, met, rfl⟩

theorem sprite_of_mem_resolved {s : Scene} {visits : List Visit} {c : Canvas} {status : UInt8 × UInt16}
    (mem : status ∈ reported (opened s visits).reverse c) : ∃ v ∈ visits, v.sprite = status.1 := by
  obtain ⟨h, opens, sprite⟩ := sprite_of_mem_reported mem
  obtain ⟨v, met, -, sprite'⟩ := sprite_of_mem_opened (List.mem_reverse.1 opens)
  exact ⟨v, met, sprite'.trans sprite⟩

/-- A pass writes statuses of the sprites that its occluders name, before and after it hides the stream. -/
theorem pass_writes (policy : Policy) (s : Scene) (c : Canvas) {holes : Holes} (closed : holes.toList = [])
    (m : Machine) :
    ∃ before after : List (Address × UInt8),
      (pass policy s c holes m).machine =
        m.writeBytes (before ++ (if policy.disableRasterizer then [(s.stream, 0)] else []) ++ after) ∧
      ∀ write ∈ before ++ after, ∃ v ∈ encountered s c holes m, s.IsStatus v.sprite write.1 := by
  let stored := provisional s (encountered s c holes m)
  let resolved := reported (opened s (encountered s c holes m)).reverse (walked s c holes m).canvas
  refine ⟨stored.flatMap s.statusBytes, resolved.flatMap s.statusBytes, ?_, fun write mem => ?_⟩
  · -- The walk stores statuses and so does filling in; the stream is hidden between them.
    rw [machine_pass policy closed, machine_walked, Scene.setStatuses_eq, hideStream_eq, Scene.setStatuses_eq,
      Machine.writeBytes_append, Machine.writeBytes_append]
  · rw [← List.flatMap_append] at mem
    obtain ⟨status, stores, byte⟩ := List.mem_flatMap.1 mem
    have named : ∃ v ∈ encountered s c holes m, v.sprite = status.1 := by
      rcases List.mem_append.1 stores with early | late
      · exact sprite_of_mem_provisional early
      · exact sprite_of_mem_resolved late
    obtain ⟨v, met, sprite⟩ := named
    exact ⟨v, met, sprite ▸ Scene.isStatus_of_mem byte⟩

/-! ## Hooks -/

/-- The bytes that hide the objects of the scene at an address. -/
def noObjects (scene : Address) : List (Address × UInt8) :=
  [(scene + 40, 0), (scene + 41, 0), (scene + 42, 0), (scene + 43, 0)]

theorem writeWord_objectsPointer (s : Scene) (m : Machine) :
    m.writeWord s.objectsPointer 0 = m.writeBytes (noObjects s.address) := by
  have offset (i : UInt32) : s.objectsPointer + i = s.address + (40 + i) := UInt32.add_assoc ..
  rw [Machine.writeWord, offset, offset, offset]
  rfl

theorem machine_transform (policy : Policy) (m : Machine) :
    (transform policy m).1 = if policy.disableTransform then m.writeBytes (noObjects (m.register 0)) else m := by
  unfold transform
  dsimp only
  rw [writeWord_objectsPointer]
  rfl

theorem runStage_of_transform {e : Drome} {a : Active} {m : Machine}
    (other : m.readWord a.profile.stage ≠ a.profile.rasterize)
    (stage : m.readWord a.profile.stage = a.profile.transform) (c : Context) :
    Returns (e.runStage a c m) fun o => o = e.report c (if a.policy.hookTransform ∧ a.policy.disableTransform then
      m.writeBytes (noObjects (m.register 0)) else m) o.events := by
  unfold Drome.runStage
  dsimp only
  rw [if_neg other, if_pos stage]
  by_cases hooked : a.policy.hookTransform = true
  · rw [if_pos hooked]
    refine .pure ?_
    rw [machine_transform]
    simp only [hooked, true_and]
    rfl
  · rw [if_neg hooked, if_neg fun both => hooked both.1]
    exact .pure rfl

theorem runStage_of_neither {e : Drome} {a : Active} {m : Machine}
    (other : m.readWord a.profile.stage ≠ a.profile.rasterize)
    (other' : m.readWord a.profile.stage ≠ a.profile.transform) (c : Context) :
    Returns (e.runStage a c m) fun o => o = e.report c m o.events := by
  unfold Drome.runStage
  dsimp only
  rw [if_neg other, if_neg other']
  exact .pure rfl

/-- **Footprint.** The rasterizer writes both bytes of the statuses of sprites that occluders of the stream name and, exactly
if the policy says so, a zero at the start of the stream. The transform stage writes four zeros over the pointer to the
objects, if it is hooked and the policy hides them, and leaves all else alone. A function that is no stage has no effect. -/
theorem hook_footprint {e : Drome} (reachable : Reachable e) {a : Active} (active : e.active = some a) {c : Context}
    (sized : c.frames.Sized) (m : Machine) :
    let s := Scene.read m (m.register 0)
    let visits := encountered s (Canvas.blank c.frames.scale) e.holes m
    let function := m.readWord a.profile.stage
    Returns (e.hook c m a.profile.trampoline) fun o =>
      (function = a.profile.rasterize → ∃ before after,
        o.machine =
          m.writeBytes (before ++ (if a.policy.disableRasterizer then [(s.stream, 0)] else []) ++ after) ∧
        ∀ write ∈ before ++ after, ∃ v ∈ visits,
          write.1 = m.register 0 + 96 + 8 * v.sprite.toUInt32 + 6 ∨
            write.1 = m.register 0 + 96 + 8 * v.sprite.toUInt32 + 7) ∧
      (function = a.profile.transform →
        o = e.report c (if a.policy.hookTransform ∧ a.policy.disableTransform then
          m.writeBytes (noObjects (m.register 0)) else m) o.events) ∧
      (function ≠ a.profile.rasterize → function ≠ a.profile.transform → o = e.report c m o.events) := by
  intro s visits function
  have distinct := transform_ne_rasterize (reachable.profile_mem active)
  by_cases rasterizes : function = a.profile.rasterize
  · rw [hook_of_rasterize active rasterizes]
    refine (rasterize_returns sized a.policy e.holes m).mono fun o left => ?_
    obtain ⟨-, machine, -⟩ := left
    obtain ⟨before, after, writes, named⟩ :=
      pass_writes a.policy s (Canvas.blank c.frames.scale) reachable.closed m
    exact ⟨fun _ => ⟨before, after, machine.trans writes, named⟩,
      fun transforms => absurd (transforms.symm.trans rasterizes) distinct, fun neither => absurd rasterizes neither⟩
  · have run : e.hook c m a.profile.trampoline = e.runStage a c m := by
      rw [Drome.hook, active]
      exact if_pos rfl
    rw [run]
    by_cases transforms : function = a.profile.transform
    · exact (runStage_of_transform rasterizes transforms c).mono fun o left =>
        ⟨fun same => absurd same rasterizes, fun _ => left, fun _ neither => absurd transforms neither⟩
    · exact (runStage_of_neither rasterizes transforms c).mono fun o left =>
        ⟨fun same => absurd same rasterizes, fun same => absurd same transforms, fun _ _ => left⟩

/-- The hook on `Single` writes the status of its sprite and hides its stream. -/
theorem hook_footprint_single :
    let c := Context.blank 1
    let a : Active := ⟨racers, defaultPolicy⟩
    Reachable Single.engine ∧ Single.engine.active = some a ∧ c.frames.Sized ∧
      Returns (Single.engine.hook c Single.machine a.profile.trampoline) fun o =>
        0x08000000 ∈ o.machine.journal ∧
          ∀ address ∈ o.machine.journal, address = 0x08000000 ∨ address = 0x02000066 ∨ address = 0x02000067 := by
  intro c a
  have sized : c.frames.Sized := Frames.sized_blank 1
  refine ⟨Single.reachable, rfl, sized, ?_⟩
  refine (hook_footprint Single.reachable (a := a) rfl sized Single.machine).mono fun o left => ?_
  obtain ⟨before, after, writes, named⟩ := left.1 Single.stage
  rw [show Scene.read Single.machine (Single.machine.register 0) = Single.scene from rfl] at writes named
  rw [show c.frames.scale = 1 from rfl, Single.encountered_eq] at named
  have stream : Single.scene.stream = 0x08000000 := by rw [Single.scene_eq]
  have status (write) (mem : write ∈ before ++ after) : write.1 = 0x02000066 ∨ write.1 = 0x02000067 := by
    obtain ⟨v, met, byte⟩ := named write mem
    rw [List.mem_singleton.1 met, Single.sprite_eq] at byte
    exact byte
  have hidden : a.policy.disableRasterizer = true := rfl
  have journal : o.machine.journal = ((before ++ [(0x08000000, 0)] ++ after).map Prod.fst).reverse := by
    rw [writes, if_pos hidden, stream, Machine.journal_writeBytes]
    exact List.append_nil _
  rw [journal]
  refine ⟨by simp, fun address written => ?_⟩
  obtain ⟨write, mem, rfl⟩ := List.mem_map.1 (List.mem_reverse.1 written)
  rw [List.append_assoc, List.mem_append, List.singleton_append, List.mem_cons] at mem
  rcases mem with early | rfl | late
  · exact .inr (status write (List.mem_append_left after early))
  · exact .inl rfl
  · exact .inr (status write (List.mem_append_right before late))

end Redraw.Drome

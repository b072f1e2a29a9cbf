import Redraw.Engine.Drome
import Redraw.Engine.DownhillJam
import Redraw.Engine.V3d
import Redraw.Proofs.Color
import Redraw.Proofs.Outline

/-!
# What engines publish

Engines draw on the indices of the frames. The color picture of a frame changes only when an engine commits the frame:
on a flip that brings it to the front, and at the end of a rasterized scene (`V3d.publishes_hook`,
`Drome.publishes_hook`, `DownhillJam.publishes_hook`). A commit shows the indices that the frame holds then, through the
palette that the machine holds then, below the outlines that are queued then, and leaves the queue empty
(`Context.Publishes`).
-/

namespace Redraw

/-! ## Commits -/

/-- What an index shows through palette RAM: nothing for index zero, otherwise the three fields of five bits of its half word,
red lowest, each widened to eight bits and opaque. -/
def Machine.pixelOf (m : Machine) (index : UInt8) : Pixel :=
  if index = 0 then (0, 0, 0, 0)
  else
    let entry := (m.readHalf (0x05000000 + 2 * index.toUInt32)).toNat
    (Color.widened (entry % 32), Color.widened (entry / 32 % 32), Color.widened (entry / 1024 % 32), 0xFF)

theorem Palette.pixel_read (m : Machine) (index : UInt8) : (read m).pixel index = m.pixelOf index := by
  rw [pixel, color_read, Color.ofEntry_eq]
  rfl

/-- What a commit of a frame resolves. -/
structure Commit where
  /-- The machine whose palette RAM is read. -/
  machine : Machine
  canvas : Canvas
  outlines : List Outline

namespace Commit

def picture (k : Commit) : Rgba := Outline.drawAll k.outlines (Rgba.resolve (Palette.read k.machine) k.canvas)

/-- What a commit shows at a position: the last outline through it, otherwise its index through palette RAM. -/
def pixel? (k : Commit) (x y : Int) : Option Pixel :=
  if Screen.Contains k.canvas.scale x y then
    match k.outlines.reverse.find? (Outline.RunsThrough k.canvas.scale x y) with
    | some o => some (o.color.red, o.color.green, o.color.blue, 0xFF)
    | none => (k.canvas.pixel? x y).map k.machine.pixelOf
  else none

theorem scale_picture (k : Commit) : k.picture.scale = k.canvas.scale := Rgba.scale_drawAll ..

theorem pixel?_picture (k : Commit) (x y : Int) : k.picture.pixel? x y = k.pixel? x y := by
  by_cases h : Screen.Contains k.canvas.scale x y
  · have shown : (Palette.read k.machine).pixel = k.machine.pixelOf := funext (Palette.pixel_read k.machine)
    rw [pixel?, if_pos h, ← Outline.decide_meets, ← shown, ← Rgba.pixel?_resolve]
    exact Outline.pixel?_drawAll k.outlines (Rgba.resolve (Palette.read k.machine) k.canvas) h
  · rw [pixel?, if_neg h, Rgba.pixel?_eq_none (by rwa [scale_picture])]

end Commit

/-! ## Contexts -/

namespace Context

/-- The frame that a value of the display control register brings to the front in display mode four: the one that bit four
names. -/
def flipped? (control : UInt16) : Option Frame :=
  if control.toNat % 8 = 4 then some (if control.toNat.testBit 4 then .one else .zero) else none

/-- From `c` to `d` the color pictures change only in the frame that was committed, if one was. It shows what it holds
through the palette of the machine, below the outlines that were queued, and none is queued any more. -/
structure Publishes (c : Context) (m : Machine) (committed? : Option Frame) (d : Context) : Prop where
  kept : ∀ i, committed? ≠ some i → (d.frames.get i).color = (c.frames.get i).color
  shown : ∀ i, committed? = some i → d.outlines = [] ∧ ∃ canvas, d.frames.canvas i = .ok canvas ∧
    (d.frames.get i).color = (Commit.mk m canvas c.outlines).picture.bytes

/-- The color pictures and the queue of outlines are the same. -/
structure Hides (c d : Context) : Prop where
  color : ∀ i, (d.frames.get i).color = (c.frames.get i).color
  outlines : d.outlines = c.outlines

variable {c d e : Context} {m : Machine}

theorem Hides.trans (first : c.Hides d) (second : d.Hides e) : c.Hides e :=
  ⟨fun i => (second.color i).trans (first.color i), second.outlines.trans first.outlines⟩

theorem publishes_none (same : ∀ i, (d.frames.get i).color = (c.frames.get i).color) (m : Machine) :
    c.Publishes m none d := ⟨fun i _ => same i, nofun⟩

theorem Hides.publishes {committed? : Option Frame} (hidden : c.Hides d) (published : d.Publishes m committed? e) :
    c.Publishes m committed? e := by
  refine ⟨fun i other => (published.kept i other).trans (hidden.color i), fun i same => ?_⟩
  rw [← hidden.outlines]
  exact published.shown i same

theorem hides_modify (c : Context) (i : Frame) {change : Buffer → Buffer}
    (color : (change (c.frames.get i)).color = (c.frames.get i).color) :
    c.Hides { c with frames := c.frames.modify i change } := by
  refine ⟨fun j => ?_, rfl⟩
  rw [Frames.get_modify]
  split
  · rename_i same
    rw [← same, color]
  · rfl

theorem hides_setActive (c : Context) (i : Frame) (active : Bool) : c.Hides (c.setActive i active) :=
  c.hides_modify i rfl

theorem hides_clear (c : Context) (i : Frame) : c.Hides (c.clear i) := c.hides_modify i rfl

theorem hides_setCanvas (c : Context) (i : Frame) (canvas : Canvas) :
    c.Hides { c with frames := c.frames.setCanvas i canvas } := c.hides_modify i rfl

theorem draw_eq (c : Context) (i : Frame) (drawing : Canvas → Canvas) :
    Leaves (c.draw i drawing) fun d => ∃ canvas, d = { c with frames := c.frames.setCanvas i canvas } := by
  refine Leaves.bind (P := fun frames => ∃ canvas, frames = c.frames.setCanvas i canvas) ?_ ?_
  · exact Leaves.bind (P := fun _ => True) (fun _ _ => trivial) fun canvas _ => .pure ⟨_, rfl⟩
  · rintro _ ⟨canvas, rfl⟩
    exact .pure ⟨canvas, rfl⟩

theorem hides_draw (c : Context) (i : Frame) (drawing : Canvas → Canvas) : Leaves (c.draw i drawing) c.Hides := by
  refine (c.draw_eq i drawing).mono ?_
  rintro _ ⟨canvas, rfl⟩
  exact c.hides_setCanvas i canvas

theorem color_outline (c : Context) (config : Config) (o : Outline) (i : Frame) :
    ((c.outline config o).frames.get i).color = (c.frames.get i).color := by
  unfold outline
  split <;> rfl

theorem commit_eq (c : Context) (m : Machine) (i : Frame) :
    Leaves (c.commit m i) fun d => ∃ canvas, c.frames.canvas i = .ok canvas ∧
      d = { c with
        frames := c.frames.modify i ({ · with
          color := (Commit.mk m canvas c.outlines).picture.bytes })
        outlines := [] } := by
  refine Leaves.bind (P := fun frames => ∃ canvas, c.frames.canvas i = .ok canvas ∧
    frames = c.frames.modify i ({ · with
      color := (Commit.mk m canvas c.outlines).picture.bytes })) ?_ ?_
  · exact Leaves.bind (P := fun canvas => c.frames.canvas i = .ok canvas) (fun _ returned => returned)
      fun canvas held => .pure ⟨canvas, held, rfl⟩
  · rintro _ ⟨canvas, held, rfl⟩
    exact .pure ⟨canvas, held, rfl⟩

theorem publishes_commit (c : Context) (m : Machine) (i : Frame) :
    Leaves (c.commit m i) (c.Publishes m (some i)) := by
  refine (c.commit_eq m i).mono ?_
  rintro _ ⟨canvas, held, rfl⟩
  refine ⟨fun j other => ?_, fun j same => ⟨rfl, canvas, ?_, ?_⟩⟩
  · rw [Frames.get_modify, if_neg fun same => other (congrArg some same)]
  · cases same
    rw [← held]
    cases i <;> rfl
  · cases same
    rw [Frames.get_modify, if_pos rfl]

/-- A flip commits the frame that comes to the front, after the other one is marked empty. -/
theorem flip_eq (c : Context) (m : Machine) (control : UInt16) :
    c.flip m control =
      match flipped? control with
      | some shown => do return (← (c.setActive shown.other false).commit m shown, [.flip shown])
      | none => .ok ({ c with frames := c.frames.deactivateAll }, [.flipOutside (control &&& 7)]) := by
  have mode : control &&& 7 = Screen.bitmapMode ↔ control.toNat % 8 = 4 := by
    rw [← UInt16.toNat_inj, UInt16.toNat_and]
    change control.toNat &&& 2 ^ 3 - 1 = 4 ↔ _
    rw [Nat.and_two_pow_sub_one_eq_mod]
  have bit : (control >>> 4 &&& 1 == 1) = control.toNat.testBit 4 := by
    rw [Bool.eq_iff_iff, beq_iff_eq, ← UInt16.toNat_inj, UInt16.toNat_and, UInt16.toNat_shiftRight,
      Nat.testBit_eq_decide_div_mod_eq, decide_eq_true_iff]
    change control.toNat >>> 4 &&& 2 ^ 1 - 1 = 1 ↔ _
    rw [Nat.and_two_pow_sub_one_eq_mod, Nat.shiftRight_eq_div_pow]
  unfold flip flipped?
  simp only [mode, bit, Frame.ofBit]
  split <;> rfl

theorem publishes_flip (c : Context) (m : Machine) (control : UInt16) :
    Leaves (c.flip m control) fun left => c.Publishes m (flipped? control) left.1 := by
  rw [flip_eq]
  cases flipped? control with
  | some shown =>
    have hidden := c.hides_setActive shown.other false
    exact ((publishes_commit _ m _).mono fun d published => hidden.publishes published).bind fun d published =>
      .pure published
  | none =>
    have first := c.hides_setActive .zero false
    exact .pure (publishes_none (first.trans ((c.setActive .zero false).hides_setActive .one false)).color m)

end Context

/-! ## V3D -/

namespace V3d

/-- The frame that a hit on an address commits. -/
def committed? (e : V3d) (m : Machine) (pc : Address) : Option Frame :=
  match e.state with
  | .active game =>
    match game.routineAt? pc with
    | some .flip => Context.flipped? (lowerHalf (m.register 2))
    | _ => none
  | _ => none

variable (config : Config) (c : Context) (m : Machine)

theorem color_drawFixed (back : Frame) (s : FixedSprite) :
    Leaves (drawFixed config c m back s) fun d => ∀ i, (d.frames.get i).color = (c.frames.get i).color := by
  refine (Context.hides_draw _ back _).mono fun d hidden i => ?_
  rw [hidden.color, Context.color_outline, (c.hides_setActive back true).color]

theorem color_drawStretched (back : Frame) (s : StretchedSprite) (color : Color) :
    Leaves (drawStretched config c m back s color) fun left =>
      ∀ i, (left.1.frames.get i).color = (c.frames.get i).color := by
  refine (Context.hides_draw _ back _).bind fun d hidden => .pure fun i => ?_
  rw [hidden.color, Context.color_outline, (c.hides_setActive back true).color]

theorem hides_copyScreen (back : Frame) (source : Address) :
    Leaves (copyScreen c m back source) fun left => c.Hides left.1 := by
  unfold copyScreen
  split
  · refine Leaves.bind (P := fun _ => True) (fun _ _ => trivial) fun canvas _ => ?_
    exact Leaves.bind (P := fun _ => True) (fun _ _ => trivial) fun copied _ => .pure (c.hides_setCanvas back copied)
  · exact .pure ⟨fun _ => rfl, rfl⟩

theorem publishes_perform (front : Frame) (routine : Routine) :
    Leaves (perform config c m front routine) fun left =>
      c.Publishes m (if routine = .flip then Context.flipped? (lowerHalf (m.register 2)) else none) left.1 := by
  have marked (i : Frame) (active : Bool) := c.hides_setActive i active
  have drawn {x : Except Fault Context}
      (same : Leaves x fun d => ∀ i, (d.frames.get i).color = (c.frames.get i).color) :
      Leaves (do return (← x, ([] : List Event))) fun left => c.Publishes m none left.1 :=
    same.bind fun d same => .pure (Context.publishes_none same m)
  have fill (i : Frame) (drawing : Canvas → Canvas) :
      Leaves ((c.setActive i true).draw i drawing) fun d => ∀ j, (d.frames.get j).color = (c.frames.get j).color :=
    (Context.hides_draw _ i drawing).mono fun d hidden => ((marked i true).trans hidden).color
  cases routine with
  | clearScreen =>
    exact .pure (Context.publishes_none ((marked front.other false).trans (Context.hides_clear _ _)).color m)
  | copyScreen pointer =>
    exact (hides_copyScreen _ m front.other _).mono fun left hidden =>
      Context.publishes_none ((marked front.other false).trans hidden).color m
  | flip => exact c.publishes_flip m _
  | flatTrapezoid color => exact drawn (fill front.other _)
  | texturedTrapezoid a => exact drawn (fill front.other _)
  | asterixPlayer mask => exact drawn (color_drawFixed config c m front.other _)
  | driv3rPlayer => exact drawn (color_drawFixed config c m front.other _)
  | asterixEnvironment | asterixNpc | driv3rScaled =>
    exact (color_drawStretched config c m front.other _ _).mono fun left same => Context.publishes_none same m
  | asterixMenuOverlay => exact .pure (Context.publishes_none (marked front false).color m)
  | asterixScroll => exact .pure (Context.publishes_none (marked front.other false).color m)

theorem publishes_run (game : Game) (routine : Routine) :
    Leaves (run config c m game routine) fun left =>
      c.Publishes m (if routine = .flip then Context.flipped? (lowerHalf (m.register 2)) else none) left.1 :=
  (publishes_perform config c m _ routine).bind fun _ published => .pure published

theorem frames_arm (profile : Profile) : (arm c profile).2.1.frames = c.frames := by cases profile <;> rfl

theorem publishes_hook (e : V3d) (pc : Address) :
    Leaves (e.hook config c m pc) fun left => c.Publishes m (e.committed? m pc) left.2.1 := by
  have nothing : c.Publishes m none c := Context.publishes_none (fun _ => rfl) m
  unfold hook committed?
  cases e.state with
  | inactive => exact .pure nothing
  | choosing address primary =>
    dsimp only
    split
    · exact .pure nothing
    · split
      · exact .pure nothing
      · refine .pure (Context.publishes_none (fun i => ?_) m)
        rw [frames_arm]
        rfl
  | active game =>
    dsimp only
    cases game.routineAt? pc with
    | none => exact .pure nothing
    | some routine =>
      dsimp only
      refine (publishes_run config c m game routine).bind fun left published => .pure ?_
      cases routine <;> exact published

end V3d

/-! ## Drome -/

namespace Drome

/-- The frame that a hit on an address commits: the one of the scene that is about to be rasterized. -/
def committed? (e : Drome) (m : Machine) (pc : Address) : Option Frame :=
  match e.active with
  | some a =>
    if a.profile.trampoline = pc ∧ m.readWord a.profile.stage = a.profile.rasterize then
      some (Scene.read m (m.register 0)).frame
    else none
  | none => none

theorem publishes_rasterize (policy : Policy) (holes : Holes) (c : Context) (m : Machine) :
    Leaves (rasterize policy holes c m) fun o =>
      c.Publishes o.machine (some (Scene.read m (m.register 0)).frame) o.context := by
  unfold rasterize
  extract_lets s first d
  have marked : c.Hides d := (c.hides_clear s.frame).trans (Context.hides_setActive _ s.frame (first.tag m != 0))
  refine Leaves.bind (P := fun _ => True) (fun _ _ => trivial) fun canvas _ => ?_
  extract_lets p e
  have drawn : c.Hides e := marked.trans (d.hides_setCanvas s.frame p.canvas)
  exact (e.publishes_commit p.machine s.frame).bind fun f published => .pure (drawn.publishes published)

theorem publishes_hook (e : Drome) (c : Context) (m : Machine) (pc : Address) :
    Leaves (e.hook c m pc) fun o => c.Publishes o.machine (e.committed? m pc) o.context := by
  have nothing (m : Machine) : c.Publishes m none c := Context.publishes_none (fun _ => rfl) m
  unfold Drome.hook committed?
  cases e.active with
  | none => exact .pure (nothing m)
  | some a =>
    dsimp only
    by_cases called : a.profile.trampoline = pc
    · rw [if_pos called]
      unfold Drome.runStage
      dsimp only
      by_cases stage : m.readWord a.profile.stage = a.profile.rasterize
      · rw [if_pos stage, if_pos ⟨called, stage⟩]
        exact publishes_rasterize a.policy e.holes c m
      · have other : ¬(a.profile.trampoline = pc ∧ m.readWord a.profile.stage = a.profile.rasterize) :=
          fun both => stage both.2
        rw [if_neg stage, if_neg other]
        split
        · split <;> exact .pure (nothing _)
        · exact .pure (nothing m)
    · rw [if_neg called, if_neg fun both => called both.1]
      exact .pure (nothing m)

end Drome

/-! ## Downhill Jam -/

namespace DownhillJam

/-- The frame that a hit on an address commits. -/
def committed? (e : DownhillJam) (m : Machine) (pc : Address) : Option Frame :=
  if e.active ∧ pc = flipAddress then Context.flipped? (lowerHalf (m.register 0)) else none

theorem publishes_hook (e : DownhillJam) (c : Context) (m : Machine) (pc : Address) :
    Leaves (e.hook c m pc) fun left => c.Publishes m (e.committed? m pc) left.1 := by
  have nothing : c.Publishes m none c := Context.publishes_none (fun _ => rfl) m
  have apart : clearAddress ≠ flipAddress := by decide
  obtain ⟨active⟩ := e
  unfold hook committed?
  cases active with
  | false => exact .pure nothing
  | true =>
    simp only [Bool.not_true, Bool.false_eq_true, if_false, true_and]
    by_cases flip : pc = flipAddress
    · subst flip
      rw [if_neg apart.symm, if_pos rfl, if_pos rfl]
      exact c.publishes_flip m _
    · rw [if_neg flip, if_neg flip]
      split
      · exact .pure (Context.publishes_none ((c.hides_setActive _ false).trans (Context.hides_clear _ _)).color m)
      · split
        · refine (Context.hides_draw _ _ _).bind fun d hidden => .pure (Context.publishes_none ?_ m)
          exact ((c.hides_setActive _ true).trans hidden).color
        · exact .pure nothing

end DownhillJam

end Redraw

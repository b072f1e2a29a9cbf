import Redraw.Proofs.Engine.Hooks
import Redraw.Proofs.Engine.Publishing
import Redraw.Proofs.Memory

/-!
# Drawing behind the frame in front

While a game shows one frame its routines draw in the other one. What a routine changes there is told by its kind
(`Context.Marks`), and the flip draws nothing: it follows the display control register (`V3d.Flips`). The main statement
(`V3d.hook_spares_front`) says that no routine of any game draws on the frame in front.
-/

namespace Redraw

theorem Frame.ne_other (i : Frame) : i ≠ i.other := by cases i <;> decide

namespace Context

/-! ## One frame -/

/-- From `c` to `d` the indices and the flag of frame `i` may have changed, the flag to `active`, and the queue of outlines.
All else is the same. -/
structure Marks (i : Frame) (active : Bool) (c d : Context) : Prop where
  breakpoints : d.breakpoints = c.breakpoints
  color : (d.frames.get i).color = (c.frames.get i).color
  flag : d.frames.isActive i = active
  apart : ∀ j, j ≠ i → d.frames.get j = c.frames.get j

variable {c d : Context} {i : Frame} {active : Bool}

theorem marks_setActive (c : Context) (i : Frame) (active : Bool) : Marks i active c (c.setActive i active) := by
  have changed (j : Frame) : (c.setActive i active).frames.get j =
      if i = j then { c.frames.get j with active } else c.frames.get j := Frames.get_modify ..
  refine ⟨rfl, ?_, ?_, fun j other => ?_⟩
  · rw [changed, if_pos rfl]
  · rw [Frames.isActive, changed, if_pos rfl]
  · rw [changed, if_neg other.symm]

namespace Marks

theorem modify {change : Buffer → Buffer} (marks : Marks i active c d)
    (color : ∀ b : Buffer, (change b).color = b.color) (flag : ∀ b : Buffer, (change b).active = b.active) :
    Marks i active c { d with frames := d.frames.modify i change } := by
  have changed (j : Frame) := Frames.get_modify d.frames i j change
  refine ⟨marks.breakpoints, ?_, ?_, fun j other => ?_⟩
  · rw [changed, if_pos rfl, color, marks.color]
  · rw [Frames.isActive, changed, if_pos rfl, flag]
    exact marks.flag
  · rw [changed, if_neg other.symm, marks.apart j other]

theorem clear (marks : Marks i active c d) : Marks i active c (d.clear i) := marks.modify (fun _ => rfl) fun _ => rfl

theorem setCanvas (marks : Marks i active c d) (canvas : Canvas) :
    Marks i active c { d with frames := d.frames.setCanvas i canvas } := marks.modify (fun _ => rfl) fun _ => rfl

theorem outline (marks : Marks i active c d) (config : Config) (o : Outline) :
    Marks i active c (d.outline config o) := by
  unfold Context.outline
  split
  · exact { marks with }
  · exact marks

theorem draw (marks : Marks i active c d) (drawing : Canvas → Canvas) :
    Leaves (d.draw i drawing) fun e => Marks i active c e ∧ e.outlines = d.outlines := by
  refine (d.draw_eq i drawing).mono ?_
  rintro _ ⟨canvas, rfl⟩
  exact ⟨marks.setCanvas canvas, rfl⟩

end Marks

/-! ## The display control register -/

/-- The register brings a frame to the front in display mode four, the one that bit four names. -/
theorem flipped?_lowerHalf (control : UInt32) :
    flipped? (lowerHalf control) =
      if control.toNat % 8 = 4 then some (Frame.ofBit (control.toNat.testBit 4)) else none := by
  have low : (lowerHalf control).toNat = control.toNat % 2 ^ 16 := UInt32.toNat_toUInt16 control
  have bit : (control.toNat % 2 ^ 16).testBit 4 = control.toNat.testBit 4 := by
    rw [Nat.testBit_mod_two_pow]
    rfl
  rw [flipped?, low, bit, Nat.mod_mod_of_dvd _ (by decide)]
  rfl

/-- A commit of a frame after the other one was marked empty publishes it, and changes no indices and no other flag. -/
theorem commit_setActive_other (c : Context) (m : Machine) (shown : Frame) :
    Leaves ((c.setActive shown.other false).commit m shown) fun d =>
      c.Publishes m (some shown) d ∧ d.breakpoints = c.breakpoints ∧
        (∀ i, (d.frames.get i).indexed = (c.frames.get i).indexed) ∧
        d.frames.isActive shown = c.frames.isActive shown ∧
        d.frames.get shown.other = { c.frames.get shown.other with active := false } := by
  have published := ((c.setActive shown.other false).publishes_commit m shown).mono fun d published =>
    (c.hides_setActive shown.other false).publishes published
  refine (published.and ((c.setActive shown.other false).commit_eq m shown)).mono ?_
  rintro _ ⟨publishes, canvas, -, rfl⟩
  refine ⟨publishes, rfl, fun i => ?_, ?_, ?_⟩
  · cases shown <;> cases i <;> rfl
  · cases shown <;> rfl
  · cases shown <;> rfl

end Context

namespace V3d

/-! ## Kinds of routines -/

namespace Routine

def IsSprite : Routine → Prop
  | .asterixPlayer _ | .asterixEnvironment | .asterixNpc | .driv3rPlayer | .driv3rScaled => True
  | _ => False

instance (routine : Routine) : Decidable routine.IsSprite := by
  cases routine <;> unfold IsSprite <;> infer_instance

/-- Whether the frame in the back holds 3D content after a routine: fills and sprites put some there, and what makes a
bitmap of it leaves none. The flip and the menu overlay do not draw. -/
def content? : Routine → Option Bool
  | .flatTrapezoid _ | .texturedTrapezoid _ => some true
  | .asterixPlayer _ | .asterixEnvironment | .asterixNpc | .driv3rPlayer | .driv3rScaled => some true
  | .clearScreen | .copyScreen _ | .asterixScroll => some false
  | .flip | .asterixMenuOverlay => none

end Routine

variable {config : Config} {c : Context} {m : Machine}

/-- The queue of outlines after a routine: a sprite adds one if the configuration asks for outlines. -/
def Queues (config : Config) (routine : Routine) (c d : Context) : Prop :=
  ∃ o, d.outlines = if routine.IsSprite ∧ config.debugDraw = true then c.outlines ++ [o] else c.outlines

theorem queues_of_not_isSprite {routine : Routine} {d : Context} (fill : ¬routine.IsSprite)
    (same : d.outlines = c.outlines) : Queues config routine c d :=
  ⟨default, by rw [same, if_neg fun both => fill both.1]⟩

theorem queues_of_isSprite {routine : Routine} {d : Context} (sprite : routine.IsSprite) {o : Outline}
    (queued : d.outlines = (c.outline config o).outlines) : Queues config routine c d := by
  refine ⟨o, ?_⟩
  rw [queued, Context.outline]
  simp only [sprite, true_and]
  split <;> rfl

/-! ## Routines -/

/-- A sprite is outlined and drawn in a frame that holds 3D content from then on. -/
theorem marks_sprite (back : Frame) (o : Outline) (drawing : Canvas → Canvas) :
    Leaves (((c.setActive back true).outline config o).draw back drawing) fun d =>
      Context.Marks back true c d ∧ d.outlines = (c.outline config o).outlines := by
  have marks := (c.marks_setActive back true).outline config o
  refine (marks.draw drawing).mono fun d drawn => ⟨drawn.1, drawn.2.trans ?_⟩
  unfold Context.outline
  split <;> rfl

theorem marks_drawFixed (back : Frame) (s : FixedSprite) :
    Leaves (drawFixed config c m back s) fun d =>
      Context.Marks back true c d ∧ ∃ o, d.outlines = (c.outline config o).outlines :=
  (marks_sprite back _ _).mono fun _ drawn => ⟨drawn.1, _, drawn.2⟩

theorem marks_drawStretched (back : Frame) (s : StretchedSprite) (color : Color) :
    Leaves (drawStretched config c m back s color) fun left =>
      Context.Marks back true c left.1 ∧ ∃ o, left.1.outlines = (c.outline config o).outlines :=
  (marks_sprite back _ _).bind fun _ drawn => .pure ⟨drawn.1, _, drawn.2⟩

theorem marks_copyScreen {d : Context} {back : Frame} {active : Bool} (marks : Context.Marks back active c d)
    (source : Address) :
    Leaves (copyScreen d m back source) fun left => Context.Marks back active c left.1 ∧
      left.1.outlines = d.outlines := by
  unfold copyScreen
  split
  · refine Leaves.bind (P := fun _ => True) (fun _ _ => trivial) fun canvas _ => ?_
    exact Leaves.bind (P := fun _ => True) (fun _ _ => trivial) fun copied _ => .pure ⟨marks.setCanvas copied, rfl⟩
  · exact .pure ⟨marks, rfl⟩

/-- What a routine that draws leaves behind. -/
theorem marks_perform (front : Frame) {routine : Routine} {active : Bool} (content : routine.content? = some active) :
    Leaves (perform config c m front routine) fun left =>
      Context.Marks front.other active c left.1 ∧ Queues config routine c left.1 := by
  have marked (active : Bool) := c.marks_setActive front.other active
  have filled {x : Except Fault Context} {routine : Routine} (fill : ¬routine.IsSprite)
      (drawn : Leaves x fun d => Context.Marks front.other true c d ∧ d.outlines = c.outlines) :
      Leaves (do return (← x, ([] : List Event))) fun left =>
        Context.Marks front.other true c left.1 ∧ Queues config routine c left.1 :=
    drawn.bind fun d both => .pure ⟨both.1, queues_of_not_isSprite fill both.2⟩
  cases routine with
  | flip | asterixMenuOverlay => cases content
  | clearScreen =>
    cases content
    exact .pure ⟨(marked false).clear, queues_of_not_isSprite id rfl⟩
  | asterixScroll =>
    cases content
    exact .pure ⟨marked false, queues_of_not_isSprite id rfl⟩
  | copyScreen pointer =>
    cases content
    exact (marks_copyScreen (marked false) _).mono fun left both => ⟨both.1, queues_of_not_isSprite id both.2⟩
  | flatTrapezoid color =>
    cases content
    exact filled id ((marked true).draw _)
  | texturedTrapezoid a =>
    cases content
    exact filled id ((marked true).draw _)
  | asterixPlayer mask =>
    cases content
    refine (marks_drawFixed front.other _).bind fun d both => ?_
    obtain ⟨marks, o, queued⟩ := both
    exact .pure ⟨marks, queues_of_isSprite trivial queued⟩
  | driv3rPlayer =>
    cases content
    refine (marks_drawFixed front.other _).bind fun d both => ?_
    obtain ⟨marks, o, queued⟩ := both
    exact .pure ⟨marks, queues_of_isSprite trivial queued⟩
  | asterixEnvironment | asterixNpc | driv3rScaled =>
    cases content
    refine (marks_drawStretched front.other _ _).mono fun left both => ?_
    obtain ⟨marks, o, queued⟩ := both
    exact ⟨marks, queues_of_isSprite trivial queued⟩

/-! ## Hits -/

/-- What a routine other than the flip leaves behind while `front` is in front. -/
structure Spares (front : Frame) (config : Config) (routine : Routine) (c d : Context) : Prop where
  breakpoints : d.breakpoints = c.breakpoints
  indexed : (d.frames.get front).indexed = (c.frames.get front).indexed
  color : ∀ i, (d.frames.get i).color = (c.frames.get i).color
  shown : routine ≠ .asterixMenuOverlay → d.frames.isActive front = c.frames.isActive front
  content : ∀ active, routine.content? = some active → d.frames.isActive front.other = active
  queued : Queues config routine c d
  overlay : routine = .asterixMenuOverlay → d = c.setActive front false

/-- What the flip leaves behind. In the bitmap mode the frame that bit four of the second register names is committed, and
the other one holds no 3D content any more. -/
structure Flips (m : Machine) (c d : Context) : Prop where
  breakpoints : d.breakpoints = c.breakpoints
  indexed : ∀ i, (d.frames.get i).indexed = (c.frames.get i).indexed
  bitmap : (m.register 2).toNat % 8 = 4 →
    let shown := Frame.ofBit ((m.register 2).toNat.testBit 4)
    c.Publishes m (some shown) d ∧ d.frames.isActive shown = c.frames.isActive shown ∧
      d.frames.get shown.other = { c.frames.get shown.other with active := false }
  elsewhere : (m.register 2).toNat % 8 ≠ 4 → d = { c with frames := c.frames.deactivateAll }

theorem spares_perform (front : Frame) {routine : Routine} (other : routine ≠ .flip) :
    Leaves (perform config c m front routine) fun left => Spares front config routine c left.1 := by
  cases content : routine.content? with
  | some active =>
    refine (marks_perform front content).mono fun left both => ?_
    obtain ⟨marks, queued⟩ := both
    have apart := marks.apart front front.ne_other
    refine ⟨marks.breakpoints, by rw [apart], fun i => ?_, fun _ => by rw [Frames.isActive, apart]; rfl, ?_, queued, ?_⟩
    · by_cases back : i = front.other
      · rw [back, marks.color]
      · rw [marks.apart i back]
    · intro active' same
      rw [content] at same
      cases same
      exact marks.flag
    · rintro rfl
      cases content
  | none =>
    have overlay : routine = .asterixMenuOverlay := by
      cases routine <;> first | exact absurd rfl other | rfl | cases content
    subst overlay
    refine .pure ⟨rfl, ?_, (c.hides_setActive front false).color, fun other => absurd rfl other, fun _ => nofun,
      queues_of_not_isSprite id rfl, fun _ => rfl⟩
    cases front <;> rfl

theorem flips_flip (c : Context) (m : Machine) :
    Leaves (c.flip m (lowerHalf (m.register 2))) fun left => Flips m c left.1 := by
  rw [Context.flip_eq, Context.flipped?_lowerHalf]
  by_cases bitmap : (m.register 2).toNat % 8 = 4
  · rw [if_pos bitmap]
    refine (c.commit_setActive_other m _).bind fun d kept => .pure ?_
    obtain ⟨publishes, breakpoints, indexed, flag, other⟩ := kept
    exact ⟨breakpoints, indexed, fun _ => ⟨publishes, flag, other⟩, fun outside => absurd bitmap outside⟩
  · rw [if_neg bitmap]
    exact .pure ⟨rfl, fun i => by cases i <;> rfl, fun inside => absurd inside bitmap, fun _ => rfl⟩

/-- **In the back.** A hit on the address of a routine returns and leaves the engine alone. No routine draws on the frame in
front: it may change what `Spares` says, or it is the flip, which changes what `Flips` says. -/
theorem hook_spares_front {e : V3d} {game : Game} (active : e.state = .active game) {c : Context}
    (sized : c.frames.Sized) (config : Config) (m : Machine) {pc : Address} {routine : Routine}
    (called : game.routineAt? pc = some routine) :
    Returns (e.hook config c m pc) fun left =>
      left.1 = e ∧
      (routine ≠ .flip → Spares (Frame.ofBit (m.readByte game.activeFrame != 0)) config routine c left.2.1) ∧
      (routine = .flip → Flips m c left.2.1) := by
  have performed : Leaves (perform config c m (Frame.ofBit (m.readByte game.activeFrame != 0)) routine) fun left =>
      (routine ≠ .flip → Spares (Frame.ofBit (m.readByte game.activeFrame != 0)) config routine c left.1) ∧
      (routine = .flip → Flips m c left.1) := by
    by_cases flip : routine = .flip
    · subst flip
      exact (flips_flip c m).mono fun left flips => ⟨fun other => absurd rfl other, fun _ => flips⟩
    · exact (spares_perform _ flip).mono fun left spares => ⟨fun _ => spares, fun same => absurd same flip⟩
  have hooked : Leaves (e.hook config c m pc) fun left =>
      (routine ≠ .flip → Spares (Frame.ofBit (m.readByte game.activeFrame != 0)) config routine c left.2.1) ∧
      (routine = .flip → Flips m c left.2.1) := by
    unfold hook
    rw [active]
    dsimp only
    rw [called]
    exact (performed.bind fun left kept => .pure kept).bind fun left kept => .pure kept
  exact ((hook_returns active sized config m pc).and hooked).mono fun left both => ⟨both.1.1, both.2⟩

/-- A machine at rest shows frame zero, so a sprite of the scenery is drawn in frame one, and outlined. -/
theorem hook_spares_front_scenery :
    let e : V3d := ⟨games.map .game, .active asterix⟩
    let c := Context.blank 2
    let config := { Config.default with debugDraw := true }
    let m := Machine.withCartridge .empty false
    e.state = .active asterix ∧ c.frames.Sized ∧ asterix.routineAt? 0x03006144 = some .asterixEnvironment ∧
      Returns (e.hook config c m 0x03006144) fun left =>
        left.1 = e ∧ (left.2.1.frames.get .zero).indexed = (c.frames.get .zero).indexed ∧
          left.2.1.frames.isActive .one = true ∧ ∃ o, left.2.1.outlines = [o] := by
  intro e c config m
  have sized : c.frames.Sized := Frames.sized_blank 2
  have called : asterix.routineAt? 0x03006144 = some .asterixEnvironment := by decide
  have front : Frame.ofBit (m.readByte asterix.activeFrame != 0) = .zero := by
    have rest : m.readByte asterix.activeFrame = 0 := Machine.readByte_withCartridge (by decide) .empty false
    rw [rest]
    rfl
  refine ⟨rfl, sized, called, (hook_spares_front (e := e) rfl sized config m called).mono fun left kept => ?_⟩
  obtain ⟨same, spares, -⟩ := kept
  have spared := spares nofun
  rw [front] at spared
  obtain ⟨o, queued⟩ := spared.queued
  exact ⟨same, spared.indexed, spared.content true rfl, o, queued⟩

end V3d

end Redraw

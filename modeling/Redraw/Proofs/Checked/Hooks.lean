import Redraw.Proofs.Checked.Commit
import Redraw.Proofs.Checked.Shapes
import Redraw.Proofs.Engine.Hooks

/-!
# Checked hits on armed addresses

The handlers of the V3D and the Downhill Jam engine decode their operands from registers and memory and draw with them. On
frames that fit their scale they return what they return unchecked (`v3dHook_agrees`, `downhillJamHook_agrees`).
-/

namespace Redraw.Checked

/-! ## V3D -/

def drawFixed (config : Config) (c : Context) (m : Machine) (back : Frame) (s : FixedSprite) : Checked Context :=
  let c := (c.setActive back true).outline config ⟨s.x, s.y, s.width, s.height, V3d.playerColor⟩
  draw c back (drawFixedSprite · s (View.ofAddress m s.data))

def drawStretched (config : Config) (c : Context) (m : Machine) (back : Frame) (s : StretchedSprite) (color : Color) :
    Checked (Context × List Event) := do
  let outline : Outline := ⟨s.left, s.top, saturate32 (s.right - s.left), saturate32 (s.bottom - s.top), color⟩
  let c := (c.setActive back true).outline config outline
  let c ← draw c back (drawStretchedSprite · s (View.ofAddress m s.data))
  return (c, V3d.offScreenEvents s c.frames.scale)

def copyScreen (c : Context) (m : Machine) (back : Frame) (source : Address) : Checked (Context × List Event) := do
  match V3d.screenBitmap m source with
  | .ok bitmap =>
    let canvas ← blit (← lift (c.frames.canvas back)) bitmap
    return ({ c with frames := c.frames.setCanvas back canvas }, [.copyScreen source back])
  | .error e => return (c, [.copySkipped e])

def perform (config : Config) (c : Context) (m : Machine) (front : Frame) :
    V3d.Routine → Checked (Context × List Event)
  | .clearScreen => return ((c.setActive front.other false).clear front.other, [])
  | .copyScreen pointer => copyScreen (c.setActive front.other false) m front.other (m.readWord pointer)
  | .flip => flip c m (lowerHalf (m.register 2))
  | .flatTrapezoid color => do
    let color := m.readByte color
    return (← draw (c.setActive front.other true) front.other (fillTrapezoid · (V3d.trapezoid m) color), [])
  | .texturedTrapezoid a => do
    let texture := m.register 11
    let uv := TrapezoidUv.ofWords (m.readWord a.left) (m.readWord a.right) (m.readWord a.leftDelta)
      (m.readWord a.rightDelta)
    return (← draw (c.setActive front.other true) front.other
      (fillTexturedTrapezoid · (V3d.trapezoid m) uv texture (View.ofAddress m texture)), [])
  | .asterixPlayer mask => return (← drawFixed config c m front.other (V3d.playerSprite m .yFirst .nibbles mask), [])
  | .driv3rPlayer => return (← drawFixed config c m front.other (V3d.playerSprite m .xFirst .bytes 0), [])
  | .asterixEnvironment => drawStretched config c m front.other (V3d.environmentSprite m) V3d.stretchedColor
  | .asterixNpc => drawStretched config c m front.other (V3d.npcSprite m) V3d.npcColor
  | .driv3rScaled => drawStretched config c m front.other (V3d.driv3rSprite m) V3d.stretchedColor
  | .asterixMenuOverlay => return (c.setActive front false, [])
  | .asterixScroll => return (c.setActive front.other false, [])

/-- Runs a routine in the frame that the variable of the game names as the one in front. -/
def runRoutine (config : Config) (c : Context) (m : Machine) (game : V3d.Game) (routine : V3d.Routine) :
    Checked (Context × List Event) := do
  let front := Frame.ofBit (m.readByte game.activeFrame != 0)
  let (c, events) ← perform config c m front routine
  return (c, .routine routine front :: events)

def v3dHook (e : V3d) (config : Config) (c : Context) (m : Machine) (pc : Address) :
    Checked (V3d × Context × List Event) := do
  match e.state with
  | .inactive => return (e, c, [.unhandledHook .v3d pc])
  | .choosing address primary =>
    if pc ≠ address then return (e, c, [.unhandledHook .v3d pc])
    else if m.register 0 ≠ 0 then return (e, c, [.choiceUnsupported (m.register 0)])
    else
      let (state, c, events) := V3d.arm c.disarm primary
      return ({ e with state }, c, events)
  | .active game =>
    match game.routineAt? pc with
    | some routine =>
      let (c, events) ← runRoutine config c m game routine
      return (e, c, events)
    | none => return (e, c, [.unhandledHook .v3d pc])

section V3d

variable {c : Context} (sized : c.frames.Sized) (fits : Fits c.frames.scale)

include sized

theorem copyScreen_agrees (m : Machine) (back : Frame) (source : Address) :
    Agrees (copyScreen c m back source) (V3d.copyScreen c m back source) := by
  unfold copyScreen V3d.copyScreen
  cases read : V3d.screenBitmap m source with
  | error e => exact .pure _
  | ok bitmap =>
    refine .lift_bind (sized.canvas_eq back) ?_
    exact (blit_agrees sized.pos (V3d.size_screenBitmap read)).bind fun _ _ => .pure _

theorem drawStretched_agrees (config : Config) (m : Machine) (back : Frame) (s : StretchedSprite) (color : Color) :
    Agrees (drawStretched config c m back s color) (V3d.drawStretched config c m back s color) := by
  have marked := Context.evolves_setActive sized back true
  have outlined := Context.evolves_outline marked.frames.sized config
    ⟨s.left, s.top, saturate32 (s.right - s.left), saturate32 (s.bottom - s.top), color⟩
  exact (draw_agrees outlined.frames.sized back fun d _ => drawStretchedSprite_eq d s _).bind fun _ _ => .pure _

include fits

theorem drawFixed_agrees (config : Config) (m : Machine) (back : Frame) (s : FixedSprite) :
    Agrees (drawFixed config c m back s) (V3d.drawFixed config c m back s) := by
  have marked := Context.evolves_setActive sized back true
  have outlined := marked.trans
    (Context.evolves_outline marked.frames.sized config ⟨s.x, s.y, s.width, s.height, V3d.playerColor⟩)
  refine draw_agrees outlined.frames.sized back fun d same => drawFixedSprite_eq ?_ s _
  rw [same, outlined.frames.scale]
  exact fits

theorem drawActive_agrees (i : Frame) {checked : Canvas → Checked Canvas} {drawing : Canvas → Canvas}
    (step : ∀ d, Fits d.scale → checked d = .ok (drawing d)) :
    Agrees (draw (c.setActive i true) i checked) ((c.setActive i true).draw i drawing) := by
  have marked := Context.evolves_setActive sized i true
  refine draw_agrees marked.frames.sized i fun d same => step d ?_
  rw [same, marked.frames.scale]
  exact fits

theorem perform_agrees (config : Config) (m : Machine) (front : Frame) (routine : V3d.Routine) :
    Agrees (perform config c m front routine) (V3d.perform config c m front routine) := by
  have nothing {x : Checked Context} {y : Except Fault Context} (drawn : Agrees x y) :
      Agrees (do return (← x, ([] : List Event))) (do return (← y, [])) := drawn.bind fun _ _ => .pure _
  cases routine with
  | clearScreen => exact .pure _
  | copyScreen pointer =>
    exact copyScreen_agrees (Context.evolves_setActive sized front.other false).frames.sized m front.other _
  | flip => exact flip_agrees sized m _
  | flatTrapezoid color =>
    exact nothing (drawActive_agrees sized fits front.other fun d fits => fillTrapezoid_eq fits _ _)
  | texturedTrapezoid a =>
    exact nothing (drawActive_agrees sized fits front.other fun d fits => fillTexturedTrapezoid_eq fits _ _ _ _)
  | asterixPlayer mask => exact nothing (drawFixed_agrees sized fits config m front.other _)
  | driv3rPlayer => exact nothing (drawFixed_agrees sized fits config m front.other _)
  | asterixEnvironment => exact drawStretched_agrees sized config m front.other _ _
  | asterixNpc => exact drawStretched_agrees sized config m front.other _ _
  | driv3rScaled => exact drawStretched_agrees sized config m front.other _ _
  | asterixMenuOverlay => exact .pure _
  | asterixScroll => exact .pure _

theorem runRoutine_agrees (config : Config) (m : Machine) (game : V3d.Game) (routine : V3d.Routine) :
    Agrees (runRoutine config c m game routine) (V3d.run config c m game routine) :=
  (perform_agrees sized fits config m _ routine).bind fun _ _ => .pure _

theorem v3dHook_agrees (e : V3d) (config : Config) (m : Machine) (pc : Address) :
    Agrees (v3dHook e config c m pc) (e.hook config c m pc) := by
  unfold v3dHook V3d.hook
  cases e.state with
  | inactive => exact .pure _
  | choosing address primary =>
    dsimp only
    split
    · exact .pure _
    · split <;> exact .pure _
  | active game =>
    dsimp only
    cases game.routineAt? pc with
    | none => exact .pure _
    | some routine => exact (runRoutine_agrees sized fits config m game routine).bind fun _ _ => .pure _

end V3d

/-! ## Downhill Jam -/

def downhillJamHook (e : DownhillJam) (c : Context) (m : Machine) (pc : Address) : Checked (Context × List Event) := do
  if !e.active then return (c, [.unhandledHook .downhillJam pc])
  else if pc = DownhillJam.clearAddress then
    let frame := DownhillJam.frameOf (m.register 0)
    return ((c.setActive frame false).clear frame, [.clearScreen frame])
  else if pc = DownhillJam.flipAddress then flip c m (lowerHalf (m.register 0))
  else if pc = DownhillJam.fillAddress then
    let area := DownhillJam.Area.ofRegisters m
    let frame := DownhillJam.frameOf area.destination
    return (← draw (c.setActive frame true) frame (fillArea area), [])
  else return (c, [.unhandledHook .downhillJam pc])

theorem downhillJamHook_agrees {c : Context} (sized : c.frames.Sized) (fits : Fits c.frames.scale) (e : DownhillJam)
    (m : Machine) (pc : Address) : Agrees (downhillJamHook e c m pc) (e.hook c m pc) := by
  unfold downhillJamHook DownhillJam.hook
  split
  · exact .pure _
  · split
    · exact .pure _
    · split
      · exact flip_agrees sized m _
      · split
        · exact (drawActive_agrees sized fits _ fun d fits => fillArea_eq fits _).bind fun _ _ => .pure _
        · exact .pure _

end Redraw.Checked

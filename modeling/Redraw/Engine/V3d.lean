import Redraw.Engine.Context
import Redraw.Engine.V3d.Operands

/-!
# The V3D engine

Shared by two families of games. It draws into the frame in the back: clears it, copies a bitmap into it, fills
trapezoids and draws sprites, until the game flips the frames.
-/

namespace Redraw

namespace V3d

inductive State where
  | inactive
  /-- Waits for a choice in a menu; only `address` is armed. -/
  | choosing (address : Address) (primary : Profile)
  | active (game : Game)
  deriving DecidableEq, Repr, Inhabited

/-- The color of the outline of a player sprite. -/
def playerColor : Color := .ofRgb 0xFF0000

/-- The color of the outline of the sprite of another character. -/
def npcColor : Color := .ofRgb 0x00FF00

/-- The color of the outline of any other stretched sprite. -/
def stretchedColor : Color := .ofRgb 0x0000FF

/-! ## Drawing -/

def drawFixed (config : Config) (c : Context) (m : Machine) (back : Frame) (s : FixedSprite) :
    Except Fault Context :=
  let c := (c.setActive back true).outline config ⟨s.x, s.y, s.width, s.height, playerColor⟩
  c.draw back (·.drawFixedSprite s (View.ofAddress m s.data))

/-- The event of drawing a stretched sprite: it is off the screen. -/
def offScreenEvents (s : StretchedSprite) (scale : Nat) : List Event :=
  if (s.area scale).isOffScreen scale then [.spriteOffScreen (s.area scale)] else []

def drawStretched (config : Config) (c : Context) (m : Machine) (back : Frame) (s : StretchedSprite)
    (color : Color) : Except Fault (Context × List Event) := do
  let outline : Outline := ⟨s.left, s.top, saturate32 (s.right - s.left), saturate32 (s.bottom - s.top), color⟩
  let c := (c.setActive back true).outline config outline
  let c ← c.draw back (·.drawStretchedSprite s (View.ofAddress m s.data))
  return (c, offScreenEvents s c.frames.scale)

/-- Copies the bitmap at an address into a frame, or reports why there is none. -/
def copyScreen (c : Context) (m : Machine) (back : Frame) (source : Address) :
    Except Fault (Context × List Event) := do
  match screenBitmap m source with
  | .ok bitmap =>
    let canvas ← (← c.frames.canvas back).blit bitmap
    return ({ c with frames := c.frames.setCanvas back canvas }, [.copyScreen source back])
  | .error e => return (c, [.copySkipped e])

/-- Does what a routine does, `front` being the frame in front. -/
def perform (config : Config) (c : Context) (m : Machine) (front : Frame) :
    Routine → Except Fault (Context × List Event)
  | .clearScreen => return ((c.setActive front.other false).clear front.other, [])
  | .copyScreen pointer => copyScreen (c.setActive front.other false) m front.other (m.readWord pointer)
  | .flip => c.flip m (lowerHalf (m.register 2))
  | .flatTrapezoid color => do
    let color := m.readByte color
    return (← (c.setActive front.other true).draw front.other (·.fillTrapezoid (trapezoid m) color), [])
  | .texturedTrapezoid a => do
    let texture := m.register 11
    let uv := TrapezoidUv.ofWords (m.readWord a.left) (m.readWord a.right) (m.readWord a.leftDelta)
      (m.readWord a.rightDelta)
    return (← (c.setActive front.other true).draw front.other
      (·.fillTexturedTrapezoid (trapezoid m) uv texture (View.ofAddress m texture)), [])
  | .asterixPlayer mask => return (← drawFixed config c m front.other (playerSprite m .yFirst .nibbles mask), [])
  | .driv3rPlayer => return (← drawFixed config c m front.other (playerSprite m .xFirst .bytes 0), [])
  | .asterixEnvironment => drawStretched config c m front.other (environmentSprite m) stretchedColor
  | .asterixNpc => drawStretched config c m front.other (npcSprite m) npcColor
  | .driv3rScaled => drawStretched config c m front.other (driv3rSprite m) stretchedColor
  | .asterixMenuOverlay => return (c.setActive front false, [])
  | .asterixScroll => return (c.setActive front.other false, [])

def run (config : Config) (c : Context) (m : Machine) (game : Game) (routine : Routine) :
    Except Fault (Context × List Event) := do
  let front := Frame.ofBit (m.readByte game.activeFrame != 0)
  let (c, events) ← perform config c m front routine
  return (c, .routine routine front :: events)

/-- Arms what a profile needs. -/
def arm (c : Context) : Profile → State × Context × List Event
  | .menu name _ address primary => (.choosing address primary, c.arm address, [.waitingForChoice name])
  | .game g => (.active g, c.armAll g.addresses, [.v3dActive g.name g.routines.length])

end V3d

structure V3d where
  profiles : List V3d.Profile
  state : V3d.State
  deriving DecidableEq

namespace V3d

def withProfiles (profiles : List Profile) : V3d := ⟨profiles, .inactive⟩

def supported : V3d := withProfiles (games.map .game)

def profileFor? (e : V3d) (title : Title) : Option Profile := e.profiles.find? (·.titles.contains title)

def identifies (e : V3d) (title : Title) : Bool := (e.profileFor? title).isSome

/-- Starts drawing a title; nothing happens for an unknown one. -/
def init (e : V3d) (c : Context) (title : Title) : V3d × Context × List Event :=
  match e.profileFor? title with
  | some profile =>
    let (state, c, events) := arm c profile
    ({ e with state }, c, events)
  | none => (e, c, [])

def deinit (e : V3d) : V3d := { e with state := .inactive }

def hook (e : V3d) (config : Config) (c : Context) (m : Machine) (pc : Address) :
    Except Fault (V3d × Context × List Event) := do
  match e.state with
  | .inactive => return (e, c, [.unhandledHook .v3d pc])
  | .choosing address primary =>
    if pc ≠ address then return (e, c, [.unhandledHook .v3d pc])
    else if m.register 0 ≠ 0 then return (e, c, [.choiceUnsupported (m.register 0)])
    else
      let (state, c, events) := arm c.disarm primary
      return ({ e with state }, c, events)
  | .active game =>
    match game.routineAt? pc with
    | some routine =>
      let (c, events) ← run config c m game routine
      return (e, c, events)
    | none => return (e, c, [.unhandledHook .v3d pc])

end V3d

end Redraw

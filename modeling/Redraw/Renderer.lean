import Redraw.Engine.Drome
import Redraw.Engine.DownhillJam
import Redraw.Engine.V3d

/-!
# The renderer

What a host talks to. It owns the frames, the armed breakpoints and the engines, and hands a hit on a breakpoint
to the engine of the loaded title. The host checks the breakpoints before every instruction, and shows the color
picture of a frame while the frame holds 3D content.
-/

namespace Redraw

/-- The renderer of a host. -/
structure Renderer where
  config : Config
  v3d : V3d
  drome : Drome
  downhillJam : DownhillJam
  /-- The engine of the loaded title. -/
  active : Option Engine
  context : Context

namespace Renderer

/-- The renderer at rest, with a configuration that is taken as it is. -/
def ofConfig (config : Config) : Renderer where
  config
  v3d := V3d.supported
  drome := Drome.idle
  downhillJam := DownhillJam.idle
  active := none
  context := Context.blank config.scale

def default : Renderer := ofConfig Config.default

/-- The renderer at rest, if the configuration is valid. -/
def new (config : Config) : Except Error Renderer := do
  config.validate
  return ofConfig config

/-! ## Looking at it -/

/-- The armed addresses in the order in which they were armed. -/
def breakpoints (r : Renderer) : List Address := r.context.breakpoints.addresses

def scale (r : Renderer) : Nat := r.context.frames.scale

def indexed (r : Renderer) (index : Nat) : Except Fault ByteArray :=
  return (r.context.frames.get (← Frame.ofIndex index)).indexed

def color (r : Renderer) (index : Nat) : Except Fault ByteArray :=
  return (r.context.frames.get (← Frame.ofIndex index)).color

def isActive (r : Renderer) (index : Nat) : Except Fault Bool :=
  return r.context.frames.isActive (← Frame.ofIndex index)

/-! ## Titles -/

/-- Whether an engine draws a title. -/
def identifies (r : Renderer) (title : Title) : Engine → Bool
  | .v3d => r.v3d.identifies title
  | .drome => Drome.identifies title
  | .downhillJam => DownhillJam.identifies title

def engineFor? (r : Renderer) (title : Title) : Option Engine := Engine.all.find? (r.identifies title)

/-- Brings an engine to rest. -/
def rest (r : Renderer) : Engine → Renderer
  | .v3d => { r with v3d := r.v3d.deinit }
  | .drome => { r with drome := Drome.idle }
  | .downhillJam => { r with downhillJam := DownhillJam.idle }

/-- Forgets everything that was armed, drawn or queued. -/
def forget (r : Renderer) : Renderer :=
  { r with
    active := none
    context := ⟨.none, r.context.frames.reset, []⟩ }

def unconfigure (r : Renderer) : Renderer × List Event :=
  match r.active with
  | some engine => ((r.rest engine).forget, [.unconfiguring engine])
  | none => (r.forget, [])

def start (r : Renderer) (title : Title) : Engine → Renderer × List Event
  | .v3d =>
    let (v3d, context, events) := r.v3d.init r.context title
    ({ r with v3d, context, active := some .v3d }, events)
  | .drome =>
    let (drome, context, events) := r.drome.init r.config r.context title
    ({ r with drome, context, active := some .drome }, events)
  | .downhillJam =>
    let (downhillJam, context, events) := DownhillJam.init r.context title
    ({ r with downhillJam, context, active := some .downhillJam }, events)

/-- Hands a title to the first engine that draws it, and says whether there is one. -/
def configure (r : Renderer) (title : Title) : Bool × Renderer × List Event :=
  let (r, events) := r.unconfigure
  match r.engineFor? title with
  | some engine =>
    let (r, started) := r.start title engine
    (true, r, events ++ .configuring title engine :: started)
  | none => (false, r, events ++ [.noEngine title])

/-- Configures for the title in the header of a cartridge. Without a header the renderer is left at rest. -/
def loadCartridge (r : Renderer) (rom : ByteArray) : Except Error Bool × Renderer × List Event :=
  let (r, events) := r.unconfigure
  match Title.ofHeader rom with
  | .ok title =>
    let (drawn, r, more) := r.configure title
    (.ok drawn, r, events ++ more)
  | .error e => (.error e, r, events)

/-! ## Scale -/

/-- Changes the scale of the frames, which start over blank, and says whether it was another one. -/
def setScale (r : Renderer) (scale : Nat) : Except Error Bool × Renderer × List Event :=
  if scale = 0 then (.error (.invalidScale scale), r, [])
  else
    let (changed, frames) := r.context.frames.rescale scale
    let r := { r with config := { r.config with scale }, context := { r.context with frames } }
    (.ok changed, r, if changed then [.scaleChanged scale] else [])

/-! ## Breakpoints -/

def runEngine (r : Renderer) (m : Machine) (pc : Address) :
    Engine → Except Fault (Renderer × Machine × List Event)
  | .v3d => do
    let (v3d, context, events) ← r.v3d.hook r.config r.context m pc
    return ({ r with v3d, context }, m, events)
  | .drome => do
    let o ← r.drome.hook r.context m pc
    return ({ r with drome := { r.drome with holes := o.holes }, context := o.context }, o.machine, o.events)
  | .downhillJam => do
    let (context, events) ← r.downhillJam.hook r.context m pc
    return ({ r with context }, m, events)

/-- Handles a hit on an address. Nothing happens at an address that is not armed or while there is no engine. -/
def onBreakpoint (r : Renderer) (m : Machine) (pc : Address) :
    Except Fault (Renderer × Machine × List Event) :=
  if r.context.breakpoints.contains pc then
    match r.active with
    | some engine => r.runEngine m pc engine
    | none => .ok (r, m, [])
  else .ok (r, m, [])

/-- Resolves a frame through the palette that the machine holds now. -/
def commit (r : Renderer) (m : Machine) (index : Nat) : Except Fault Renderer := do
  return { r with context := ← r.context.commit m (← Frame.ofIndex index) }

def addBreakpoint (r : Renderer) (a : Address) : Renderer := { r with context := r.context.arm a }

def clearBreakpoints (r : Renderer) : Renderer := { r with context := r.context.disarm }

end Renderer

end Redraw

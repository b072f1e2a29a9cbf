import Redraw.Engine.Context
import Redraw.Engine.Drome.Pass

/-!
# The Drome engine

Both stages of the pipeline, transform and rasterize, are called through one trampoline in RAM: a word next to it
holds the stage that is about to run. The rasterizer draws a whole stream into one frame and commits it. Depending
on the policy the stages of the game itself are handed empty input, so that they do no work twice.
-/

namespace Redraw

namespace Drome

structure Profile where
  name : String
  titles : List Title
  trampoline : Address
  /-- The word that holds the stage about to run. -/
  stage : Address
  transform : Address
  rasterize : Address
  policy : Policy
  deriving DecidableEq, Repr, Inhabited

/-- Only the rasterizer is replaced, and the one of the game is starved. -/
def defaultPolicy : Policy := ⟨false, false, true⟩

def racers : Profile where
  name := "Drome Racers"
  titles := [.ofChars 'A' 'O' 'E' 'X', .ofChars 'A' 'O' 'E' 'E']
  trampoline := 0x030023D4
  stage := 0x03000E04
  transform := 0x08064880
  rasterize := 0x08000330
  policy := defaultPolicy

/-- The stunt track game on a cartridge of its own. -/
def stuntTrack : Profile where
  name := "Hot Wheels Stunt Track Challenge"
  titles := [.ofChars 'B' 'H' 'E' 'E']
  trampoline := 0x0300243C
  stage := 0x03000DD8
  transform := 0x080EA350
  rasterize := 0x08085E00
  policy := defaultPolicy

/-- The stunt track game on a cartridge with two games, eight mebibytes further on. -/
def twoPack : Profile where
  name := "Hot Wheels 2 Pack"
  titles := [.ofChars 'B' 'Q' 'J' 'E']
  trampoline := 0x03002294
  stage := 0x03000DD8
  transform := 0x088EA350
  rasterize := 0x08885E00
  policy := defaultPolicy

/-- The supported games, in the order in which a title is looked up. -/
def profiles : List Profile := [racers, stuntTrack, twoPack]

def profileFor? (title : Title) : Option Profile := profiles.find? (·.titles.contains title)

/-- A game that is being drawn, and its policy. -/
structure Active where
  profile : Profile
  policy : Policy
  deriving DecidableEq, Repr

/-! ## The stages -/

/-- What a stage leaves behind. -/
structure Outcome where
  holes : Holes
  context : Context
  machine : Machine
  events : List Event

/-- The pass over the stream of a scene on a cleared frame: all records are drawn, the stream is hidden from the
game if the policy says so, and the sprites are resolved. -/
def pass (policy : Policy) (scene : Scene) (canvas : Canvas) (holes : Holes) (m : Machine) : Pass :=
  let (p, count) := Pass.walk scene Pass.maxRecords ⟨scene.stream⟩ ⟨canvas, holes, m, #[]⟩
  let p := p.log (.rasterized count scene.frame p.holes.size)
  let p := if policy.disableRasterizer then { p with machine := p.machine.writeByte scene.stream 0 } else p
  p.drain scene

/-- Draws the stream of the scene in the first register and commits its frame. -/
def rasterize (policy : Policy) (holes : Holes) (c : Context) (m : Machine) : Except Fault Outcome := do
  let scene := Scene.read m (m.register 0)
  let first : Record := ⟨scene.stream⟩
  let c := (c.clear scene.frame).setActive scene.frame (first.tag m != 0)
  let p := pass policy scene (← c.frames.canvas scene.frame) holes m
  let c := { c with frames := c.frames.setCanvas scene.frame p.canvas }
  return ⟨p.holes, ← c.commit p.machine scene.frame, p.machine, p.events.toList⟩

/-- Reports the scene in the first register, and hides its objects from the game if the policy says so. -/
def transform (policy : Policy) (m : Machine) : Machine × List Event :=
  let scene := Scene.read m (m.register 0)
  let objects := SceneObject.list m (m.readWord scene.objectsPointer)
  let events := objects.map (fun o => Event.sceneObject o.model o.position)
    ++ [.transform objects.length (cameraPosition m scene.address)]
  (if policy.disableTransform then m.writeWord scene.objectsPointer 0 else m, events)

end Drome

structure Drome where
  active : Option Drome.Active
  holes : Drome.Holes

namespace Drome

def idle : Drome := ⟨none, Bounded.empty⟩

def identifies (title : Title) : Bool := (profileFor? title).isSome

/-- Starts drawing a title; nothing happens for an unknown one. -/
def init (e : Drome) (config : Config) (c : Context) (title : Title) : Drome × Context × List Event :=
  match profileFor? title with
  | some profile =>
    let policy := config.policyFor title profile.policy
    (⟨some ⟨profile, policy⟩, Bounded.empty⟩, c.arm profile.trampoline, [.dromeActive profile.name policy])
  | none => (e, c, [])

/-- What a hit on an address leaves behind when nothing is done but to report it. -/
def report (e : Drome) (c : Context) (m : Machine) (events : List Event) : Outcome := ⟨e.holes, c, m, events⟩

def runStage (e : Drome) (a : Active) (c : Context) (m : Machine) : Except Fault Outcome :=
  let function := m.readWord a.profile.stage
  if function = a.profile.rasterize then Drome.rasterize a.policy e.holes c m
  else if function = a.profile.transform then
    if a.policy.hookTransform then
      let (m, events) := Drome.transform a.policy m
      .ok (e.report c m events)
    else .ok (e.report c m [])
  else .ok (e.report c m [.notAStage function])

def hook (e : Drome) (c : Context) (m : Machine) (pc : Address) : Except Fault Outcome :=
  match e.active with
  | some a =>
    if a.profile.trampoline = pc then e.runStage a c m
    else .ok (e.report c m [.unhandledHook .drome pc])
  | none => .ok (e.report c m [.unhandledHook .drome pc])

end Drome

end Redraw

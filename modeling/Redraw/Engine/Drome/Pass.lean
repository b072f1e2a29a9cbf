import Redraw.Event
import Redraw.Canvas.Affine

/-!
# A pass over the primitive stream

The rasterizer walks the stream record by record and draws each of them. Occluders write to the memory that the
stream is in, so the walk reads every record from the machine as the records before it left it.
-/

namespace Redraw.Drome

/-- The state of a pass: the picture with its open holes, the machine, and what was reported so far. -/
structure Pass where
  canvas : Canvas
  holes : Holes
  machine : Machine
  events : Array Event

namespace Pass

def maxRecords : Nat := 4096

def log (p : Pass) (e : Event) : Pass := { p with events := p.events.push e }

/-- Reports the vertices that a polygon had no room for. -/
def logDropped (p : Pass) (dropped : Nat) : Pass :=
  (List.replicate dropped Event.clipOverflow).foldl log p

def draw (p : Pass) (drawing : Canvas → Canvas) : Pass := { p with canvas := drawing p.canvas }

/-- Punches a hole for the sprite of an occluder, if it is in the viewport, and writes the status of the sprite:
for now the saved pixel, or that the sprite is outside. -/
def punchOccluder (p : Pass) (scene : Scene) (r : Record) : Pass :=
  let index := r.spriteIndex p.machine
  let (x, y) := scene.spritePosition p.machine index
  if scene.containsPixel x y then
    let scale : Int := p.canvas.scale
    let (punch, punched) := Punched.punch ⟨p.canvas, p.holes⟩ index (x * scale) (y * scale)
    let status := (punch.pixel?.map (·.toUInt16)).getD Visibility.outside.code
    let events := if punch = .full then p.events.push (.occlusionFull index) else p.events
    ⟨punched.canvas, punched.holes, scene.setSpriteStatus p.machine index status, events⟩
  else { p with machine := scene.setSpriteStatus p.machine index Visibility.outside.code }

def drawPrimitive (p : Pass) (scene : Scene) (r : Record) : PrimitiveKind → Pass
  | .flat => p.draw (·.fillTriangle (r.flatTriangle p.machine) (r.material p.machine))
  | .clippedFlat =>
    let color := r.material p.machine
    let clipped := (r.flatTriangle p.machine).clip scene.viewport (r.clipFlags p.machine)
    let p := (p.logDropped clipped.dropped).log (.clipped (clipped.polygon.join " "))
    p.draw ((Polygon.fan clipped.polygon).foldl (·.fillTriangle · color) ·)
  | .affine =>
    let texture := scene.texture p.machine (r.material p.machine)
    p.draw (·.fillAffineTriangle (r.texturedTriangle p.machine) texture.texel)
  | .clippedAffine =>
    let texture := scene.texture p.machine (r.material p.machine)
    let clipped := (r.texturedTriangle p.machine).clip scene.viewport (r.clipFlags p.machine)
    (p.logDropped clipped.dropped).draw
      ((Polygon.fan clipped.polygon).foldl (·.fillAffineTriangle · texture.texel) ·)
  | .staticTextured | .clippedStaticTextured => p.log .staticTextured
  | .occluder => p.punchOccluder scene r

/-- Draws a record, or reports that its tag is unknown. -/
def drawRecord (p : Pass) (scene : Scene) (r : Record) : Pass :=
  match PrimitiveKind.ofTag (r.tag p.machine) with
  | .ok kind => (p.log (.primitive kind r.address)).drawPrimitive scene r kind
  | .error e => p.log (.primitiveSkipped e r.address)

/-- Draws the records from `r` on up to the end of the stream, at most `n` of them, and counts them. A stream that
goes on after that is reported. -/
def walk (scene : Scene) : Nat → Record → Pass → Pass × Nat
  | n, r, p =>
    if r.tag p.machine = 0 then (p, 0)
    else
      match n with
      | 0 => (p.log (.endlessStream scene.stream), 0)
      | n + 1 =>
        let p := p.drawRecord scene r
        let (p, count) := walk scene n (r.next p.machine) p
        (p, count + 1)

/-- Fills all holes in and writes the status of their sprites, the newest hole first. -/
def drain (p : Pass) (scene : Scene) : Pass :=
  let (reports, punched) := Punched.drain ⟨p.canvas, p.holes⟩
  { p with
    canvas := punched.canvas
    holes := punched.holes
    machine := reports.foldl (fun m (sprite, visibility) => scene.setSpriteStatus m sprite visibility.code)
      p.machine }

end Pass

end Redraw.Drome

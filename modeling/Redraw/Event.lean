import Redraw.Canvas.Sprite
import Redraw.Config
import Redraw.Engine
import Redraw.Engine.Drome.Holes
import Redraw.Engine.Drome.Record
import Redraw.Engine.Drome.Scene
import Redraw.Engine.V3d.Profile

/-!
# Events

What the library reports while it runs. An event has a level, a message and named values; its text is all three
in a row.
-/

namespace Redraw

inductive Level where
  | warn
  | info
  | debug
  | trace
  deriving DecidableEq, Repr

namespace Level

def text : Level → String
  | .warn => "WARN"
  | .info => "INFO"
  | .debug => "DEBUG"
  | .trace => "TRACE"

/-- The rank of a level; the most important one has the lowest. -/
def rank : Level → Nat
  | .warn => 0
  | .info => 1
  | .debug => 2
  | .trace => 3

/-- Whether an event of this level is kept by a log that keeps `least` and everything more important. -/
def keptBy (level least : Level) : Bool := level.rank ≤ least.rank

end Level

/-- Something that happened. -/
inductive Event where
  /-- No engine draws the title. -/
  | noEngine (title : Title)
  | configuring (title : Title) (engine : Engine)
  | unconfiguring (engine : Engine)
  | scaleChanged (scale : Nat)
  /-- The game shows a frame. -/
  | flip (front : Frame)
  /-- The game leaves the bitmap mode. -/
  | flipOutside (mode : UInt16)
  /-- An engine was called at an address that it did not arm. -/
  | unhandledHook (engine : Engine) (pc : Address)
  /-- More vertices than a polygon can have. -/
  | clipOverflow
  /-- A stretched sprite has no pixel on the screen. -/
  | spriteOffScreen (area : StretchedSprite.Area)
  /-- A menu has to be left before the game is known. -/
  | waitingForChoice (game : String)
  | v3dActive (game : String) (routines : Nat)
  /-- The game that was chosen in a menu is not supported. -/
  | choiceUnsupported (choice : UInt32)
  | routine (routine : V3d.Routine) (front : Frame)
  | copyScreen (source : Address) (back : Frame)
  | copySkipped (error : Error)
  | dromeActive (game : String) (policy : Policy)
  /-- The trampoline runs a function that is no stage. -/
  | notAStage (function : Address)
  | sceneObject (model : Address) (position : Drome.Position)
  | transform (objects : Nat) (camera : Drome.Position)
  | primitive (kind : Drome.PrimitiveKind) (address : Address)
  /-- The outcome of clipping a flat triangle. -/
  | clipped (polygon : String)
  /-- A static textured triangle, which is not drawn. -/
  | staticTextured
  | primitiveSkipped (error : Error) (address : Address)
  | occlusionFull (sprite : UInt8)
  | endlessStream (stream : Address)
  | rasterized (primitives : Nat) (frame : Frame) (occluders : Nat)
  | downhillJamActive (title : Title)
  | clearScreen (frame : Frame)
  deriving DecidableEq, Repr

namespace Event

def level : Event → Level
  | .unhandledHook .. | .clipOverflow | .copySkipped .. | .primitiveSkipped .. | .occlusionFull ..
  | .endlessStream .. => .warn
  | .noEngine .. | .configuring .. | .unconfiguring .. | .waitingForChoice .. | .v3dActive ..
  | .choiceUnsupported .. | .dromeActive .. | .downhillJamActive .. => .info
  | .scaleChanged .. | .flip .. | .flipOutside .. | .copyScreen .. | .transform .. | .rasterized ..
  | .clearScreen .. => .debug
  | .spriteOffScreen .. | .routine .. | .notAStage .. | .sceneObject .. | .primitive .. | .clipped ..
  | .staticTextured => .trace

/-- What a call at an address that was not armed is called, engine by engine. -/
def unhandledMessage : Engine → String
  | .v3d => "unhandled v3d hook"
  | .drome => "unhandled drome hook"
  | .downhillJam => "unhandled downhill jam hook"

def message : Event → String
  | .noEngine .. => "no hle backend for title"
  | .configuring .. => "configuring hle backend"
  | .unconfiguring .. => "unconfiguring hle backend"
  | .scaleChanged .. => "render scale changed"
  | .flip .. => "flip buffers"
  | .flipOutside .. => "flip buffers outside of mode 4"
  | .unhandledHook engine _ => unhandledMessage engine
  | .clipOverflow => "clip scratch overflow, dropping vertex"
  | .spriteOffScreen .. => "scaled sprite off screen"
  | .waitingForChoice .. => "waiting for game selection"
  | .v3dActive .. => "v3d backend active"
  | .choiceUnsupported .. => "selected game is not supported, staying passive"
  | .routine .. => "v3d routine"
  | .copyScreen .. => "copy screen"
  | .copySkipped .. => "screen copy skipped"
  | .dromeActive .. => "drome backend active"
  | .notAStage .. => "not a pipeline stage"
  | .sceneObject .. => "scene object"
  | .transform .. => "transform"
  | .primitive .. => "primitive"
  | .clipped .. => "clipped"
  | .staticTextured => "static textured triangles are not rasterized"
  | .primitiveSkipped .. => "primitive skipped"
  | .occlusionFull .. => "occlusion stack full"
  | .endlessStream .. => "primitive stream does not terminate"
  | .rasterized .. => "rasterized stream"
  | .downhillJamActive .. => "downhill jam backend active"
  | .clearScreen .. => "clear screen"

/-- The named values of an event, in order. -/
def fields : Event → List (String × String)
  | .noEngine title => [("title", title.text)]
  | .configuring title engine => [("title", title.text), ("backend", engine.name)]
  | .unconfiguring engine => [("backend", engine.name)]
  | .scaleChanged scale => [("scale", toString scale)]
  | .flip front => [("front", toString front.toNat)]
  | .flipOutside mode => [("mode", toString mode)]
  | .unhandledHook _ pc => [("pc", Text.wordHex pc)]
  | .clipOverflow => [("capacity", toString polygonCapacity)]
  | .spriteOffScreen area =>
    [("left", toString area.left), ("top", toString area.top), ("right", toString area.right),
      ("bottom", toString area.bottom)]
  | .waitingForChoice game => [("game", game)]
  | .v3dActive game routines => [("game", game), ("routines", toString routines)]
  | .choiceUnsupported choice => [("choice", toString choice)]
  | .routine called front => [("routine", called.text), ("front", toString front.toNat)]
  | .copyScreen source back => [("source", Text.wordHex source), ("back", toString back.toNat)]
  | .copySkipped error => [("error", error.message)]
  | .dromeActive game policy => [("game", game), ("policy", policy.text)]
  | .notAStage function => [("function", Text.wordHex function)]
  | .sceneObject model position => [("model", Text.wordHex model), ("position", position.text)]
  | .transform objects camera => [("objects", toString objects), ("camera", camera.text)]
  | .primitive kind address => [("kind", kind.text), ("address", Text.wordHex address)]
  | .clipped polygon => [("polygon", polygon)]
  | .staticTextured => []
  | .primitiveSkipped error address => [("error", error.message), ("address", Text.wordHex address)]
  | .occlusionFull sprite => [("sprite", toString sprite), ("capacity", toString Drome.holeCapacity)]
  | .endlessStream stream => [("stream", Text.wordHex stream)]
  | .rasterized primitives frame occluders =>
    [("primitives", toString primitives), ("frame", toString frame.toNat), ("occluders", toString occluders)]
  | .downhillJamActive title => [("title", title.text)]
  | .clearScreen frame => [("frame", toString frame.toNat)]

/-- The level, the message and the named values of an event. -/
def text (e : Event) : String :=
  e.level.text ++ " " ++ e.message ++ String.join (e.fields.map fun (name, value) => s!" {name}={value}")

end Event

end Redraw

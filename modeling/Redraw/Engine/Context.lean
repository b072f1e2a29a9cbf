import Redraw.Breakpoints
import Redraw.Event
import Redraw.Frames

/-!
# What engines share

The breakpoints, the two frames and the queue of outlines. Engines arm addresses, draw on the frames and commit
them through this context.
-/

namespace Redraw

/-- Everything that an engine may touch besides its own state. -/
structure Context where
  breakpoints : Breakpoints
  frames : Frames
  /-- The rectangles to outline on the next commit, the oldest first. -/
  outlines : List Outline
  deriving DecidableEq

namespace Context

/-- Nothing is armed, drawn or queued. -/
def blank (scale : Nat) : Context := ⟨.none, Frames.blank scale, []⟩

def arm (c : Context) (a : Address) : Context := { c with breakpoints := c.breakpoints.add a }

def armAll (c : Context) (as : List Address) : Context := { c with breakpoints := c.breakpoints.addAll as }

def disarm (c : Context) : Context := { c with breakpoints := .none }

def setActive (c : Context) (i : Frame) (active : Bool) : Context :=
  { c with frames := c.frames.setActive i active }

def clear (c : Context) (i : Frame) : Context := { c with frames := c.frames.clear i }

def draw (c : Context) (i : Frame) (drawing : Canvas → Canvas) : Except Fault Context := do
  return { c with frames := ← c.frames.draw i drawing }

/-- Resolves a frame through the palette that the machine holds now and outlines the queue on it. -/
def commit (c : Context) (m : Machine) (i : Frame) : Except Fault Context := do
  return { c with frames := ← c.frames.commit i (Palette.read m) c.outlines, outlines := [] }

/-- Queues an outline if the configuration asks for outlines. -/
def outline (c : Context) (config : Config) (o : Outline) : Context :=
  if config.debugDraw then { c with outlines := c.outlines ++ [o] } else c

/-- Follows the display control register at the end of a frame. In the bitmap mode the frame bit names the frame
in front: it is committed, and the other one holds no 3D content any more. In other modes no frame is shown. -/
def flip (c : Context) (m : Machine) (control : UInt16) : Except Fault (Context × List Event) := do
  let mode := control &&& 7
  if mode = Screen.bitmapMode then
    let front := Frame.ofBit (control >>> 4 &&& 1 == 1)
    return (← (c.setActive front.other false).commit m front, [.flip front])
  else
    return ({ c with frames := c.frames.deactivateAll }, [.flipOutside mode])

end Context

end Redraw

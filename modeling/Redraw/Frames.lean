import Redraw.Outline

/-!
# The two frames

Each of the two bitmap frames is kept as palette indices, as the color picture of its latest commit, and with a
flag that says whether it holds 3D content. Which one is in front is the game's business.
-/

namespace Redraw

structure Buffer where
  indexed : ByteArray
  color : ByteArray
  /-- Whether the frame holds 3D content. -/
  active : Bool
  deriving DecidableEq

namespace Buffer

/-- A frame without content at a scale. -/
def blank (scale : Nat) : Buffer where
  indexed := Bytes.zeros (Screen.area * scale * scale)
  color := Bytes.zeros (4 * (Screen.area * scale * scale))
  active := false

def clear (b : Buffer) : Buffer := { b with indexed := Bytes.fill b.indexed 0 b.indexed.size 0 }

def reset (b : Buffer) : Buffer where
  indexed := Bytes.fill b.indexed 0 b.indexed.size 0
  color := Bytes.fill b.color 0 b.color.size 0
  active := false

end Buffer

structure Frames where
  scale : Nat
  zero : Buffer
  one : Buffer
  deriving DecidableEq

namespace Frames

/-- Two frames without content; a scale of zero counts as one. -/
def blank (scale : Nat) : Frames :=
  let scale := max scale 1
  ⟨scale, Buffer.blank scale, Buffer.blank scale⟩

def width (f : Frames) : Nat := Screen.width * f.scale

def height (f : Frames) : Nat := Screen.height * f.scale

def get (f : Frames) : Frame → Buffer
  | .zero => f.zero
  | .one => f.one

/-- Applies `change` to one of the frames. -/
def modify (f : Frames) (i : Frame) (change : Buffer → Buffer) : Frames :=
  match i with
  | .zero => { f with zero := change f.zero }
  | .one => { f with one := change f.one }

def isActive (f : Frames) (i : Frame) : Bool := (f.get i).active

def setActive (f : Frames) (i : Frame) (active : Bool) : Frames := f.modify i ({ · with active := active })

def deactivateAll (f : Frames) : Frames := (f.setActive .zero false).setActive .one false

def clear (f : Frames) (i : Frame) : Frames := f.modify i Buffer.clear

def reset (f : Frames) : Frames := (f.modify .zero Buffer.reset).modify .one Buffer.reset

/-- The frames for a scale: the same ones when it is the present scale, otherwise blank ones. -/
def rescale (f : Frames) (scale : Nat) : Bool × Frames :=
  if scale = f.scale then (false, f) else (true, blank scale)

def canvas (f : Frames) (i : Frame) : Except Fault Canvas :=
  let pixels := (f.get i).indexed
  if h : pixels.size = Screen.area * f.scale * f.scale then .ok ⟨f.scale, pixels, h⟩
  else .error (.pictureSize pixels.size)

/-- Puts a canvas in the place of the indices of a frame. -/
def setCanvas (f : Frames) (i : Frame) (c : Canvas) : Frames :=
  f.modify i ({ · with indexed := c.pixels })

def draw (f : Frames) (i : Frame) (drawing : Canvas → Canvas) : Except Fault Frames := do
  let c ← f.canvas i
  return f.setCanvas i (drawing c)

/-- Resolves a frame through a palette and outlines the queued rectangles on it. -/
def commit (f : Frames) (i : Frame) (palette : Palette) (queue : List Outline) : Except Fault Frames := do
  let c ← f.canvas i
  let picture := Outline.drawAll queue (Rgba.resolve palette c)
  return f.modify i ({ · with color := picture.bytes })

@[simp]
theorem get_modify (f : Frames) (i j : Frame) (change : Buffer → Buffer) :
    (f.modify i change).get j = if i = j then change (f.get j) else f.get j := by
  cases i <;> cases j <;> rfl

@[simp]
theorem scale_modify (f : Frames) (i : Frame) (change : Buffer → Buffer) :
    (f.modify i change).scale = f.scale := by
  cases i <;> rfl

end Frames

end Redraw

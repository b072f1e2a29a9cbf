import Redraw.Proofs.Checked.Canvas
import Redraw.Proofs.Picture

/-!
# Checked commits

A commit resolves the indices of a frame through the palette into its color picture, which has four bytes for each of them,
and outlines rectangles by indices that are reckoned without a look at the border: the rectangles are cut to the screen
before. On frames that fit their scale a commit cannot fail, whatever is queued.
-/

namespace Redraw.Checked

/-! ## Outlines -/

def plot (p : Rgba) (x y : Int) (color : Color) : Checked Rgba := do
  let i := y * (Screen.width * p.scale : Nat) + x
  demand (0 ≤ i ∧ 4 * i + 4 ≤ p.bytes.size) (.slice (4 * i).toNat (4 * i + 4).toNat p.bytes.size)
  return p.plot x y color

def drawOutline (p : Rgba) (o : Outline) : Checked Rgba :=
  (o.points p.scale).foldlM (fun p point => plot p point.1 point.2 o.color) p

theorem plot_eq {p : Rgba} {x y : Int} (contains : Screen.Contains p.scale x y) (color : Color) :
    plot p x y color = .ok (p.plot x y color) := by
  unfold plot
  dsimp only
  rw [demand_of (Rgba.bytes_of_contains contains)]
  rfl

theorem drawOutline_eq (p : Rgba) (o : Outline) : drawOutline p o = .ok (Outline.draw p o) := by
  refine foldlM_eq (fun d => d.scale = p.scale) (fun d same point mem => ?_) (fun d same point _ => ?_) rfl
  · exact plot_eq (same ▸ Outline.Meets.contains mem) _
  · exact (d.scale_plot ..).trans same

/-! ## Commits -/

/-- Everything that is touched for one pixel of a resolved picture: the entry that its index names, and its four bytes. -/
def resolvePixel (palette : Palette) (c : Canvas) (color : ByteArray) (i : Nat) : Checked Unit := do
  let entry ← get c.pixels i
  demand (entry.toNat < palette.colors.size) (.index entry.toNat palette.colors.size)
  slice color (4 * i) (4 * i + 4)

/-- Resolves a canvas into the color picture of a frame. -/
def resolve (palette : Palette) (c : Canvas) (color : ByteArray) : Checked Rgba := do
  let _ ← (List.range c.pixels.size).mapM (resolvePixel palette c color)
  return Rgba.resolve palette c

def commit (f : Frames) (i : Frame) (palette : Palette) (queue : List Outline) : Checked Frames := do
  let canvas ← lift (f.canvas i)
  let resolved ← resolve palette canvas (f.get i).color
  let picture ← queue.foldlM drawOutline resolved
  return f.modify i ({ · with color := picture.bytes })

theorem resolvePixel_eq {c : Canvas} {color : ByteArray} {i : Nat} (size : color.size = 4 * c.pixels.size)
    (lt : i < c.pixels.size) (palette : Palette) : resolvePixel palette c color i = .ok () := by
  have pixel : get c.pixels i = .ok c.pixels[i] := by simp only [get, Bytes.at?, dif_pos lt]
  rw [resolvePixel, pixel, ok_bind, demand_of c.pixels[i].toNat_lt, ok_bind, slice, demand_of ⟨by omega, by omega⟩]

theorem resolve_eq {c : Canvas} {color : ByteArray} (size : color.size = 4 * c.pixels.size) (palette : Palette) :
    resolve palette c color = .ok (Rgba.resolve palette c) := by
  rw [resolve, mapM_eq fun i mem => resolvePixel_eq size (List.mem_range.1 mem) palette]
  rfl

theorem commit_agrees {f : Frames} (sized : f.Sized) (i : Frame) (palette : Palette) (queue : List Outline) :
    Agrees (commit f i palette queue) (f.commit i palette queue) := by
  refine .lift_bind (sized.canvas_eq i) ?_
  have size : (f.get i).color.size = 4 * (f.get i).indexed.size := by rw [sized.color, sized.indexed]
  have outlined (p : Rgba) : queue.foldlM drawOutline p = .ok (queue.foldl Outline.draw p) :=
    foldlM_eq (fun _ => True) (fun p _ o _ => drawOutline_eq p o) (fun _ _ _ _ => trivial) trivial
  dsimp only
  rw [resolve_eq size, ok_bind, outlined]
  exact .pure _

/-! ## Contexts -/

def draw (c : Context) (i : Frame) (drawing : Canvas → Checked Canvas) : Checked Context := do
  let canvas ← drawing (← lift (c.frames.canvas i))
  return { c with frames := c.frames.setCanvas i canvas }

def commitFrame (c : Context) (m : Machine) (i : Frame) : Checked Context := do
  return { c with frames := ← commit c.frames i (Palette.read m) c.outlines, outlines := [] }

def flip (c : Context) (m : Machine) (control : UInt16) : Checked (Context × List Event) := do
  let mode := control &&& 7
  if mode = Screen.bitmapMode then
    let front := Frame.ofBit (control >>> 4 &&& 1 == 1)
    return (← commitFrame (c.setActive front.other false) m front, [.flip front])
  else
    return ({ c with frames := c.frames.deactivateAll }, [.flipOutside mode])

variable {c : Context} (sized : c.frames.Sized)

include sized

theorem draw_agrees (i : Frame) {checked : Canvas → Checked Canvas} {drawing : Canvas → Canvas}
    (step : ∀ d, d.scale = c.frames.scale → checked d = .ok (drawing d)) : Agrees (draw c i checked) (c.draw i drawing) := by
  have held := sized.canvas_eq i
  refine ⟨{ c with frames := c.frames.setCanvas i (drawing ⟨c.frames.scale, _, sized.indexed i⟩) }, ?_, ?_⟩
  · rw [Context.draw, Frames.draw, held]
    rfl
  · rw [draw, held]
    change (do let canvas ← checked _; _) = _
    rw [step _ rfl]
    rfl

theorem commitFrame_agrees (m : Machine) (i : Frame) : Agrees (commitFrame c m i) (c.commit m i) :=
  (commit_agrees sized i _ _).bind fun _ _ => .pure _

theorem flip_agrees (m : Machine) (control : UInt16) : Agrees (flip c m control) (c.flip m control) := by
  unfold flip Context.flip
  dsimp only
  split
  · have marked := Context.evolves_setActive sized (Frame.ofBit (control >>> 4 &&& 1 == 1)).other false
    exact (commitFrame_agrees marked.frames.sized m _).bind fun _ _ => .pure _
  · exact .pure _

end Redraw.Checked

import Redraw.Canvas.Pixels
import Redraw.Engine.Context
import Redraw.Proofs.Calls

/-!
# Frames that can be drawn on

The buffers of both frames have the size that the scale asks for (`Frames.Sized`). Every operation keeps it that way, so
drawing on a frame and committing it never fail, and a reset gives the frames that a start gives (`reset_eq`).
-/

namespace Redraw

/-! ## Pictures -/

theorem Bytes.fill_zero (b : ByteArray) : Bytes.fill b 0 b.size 0 = Bytes.zeros b.size := by
  refine ByteArray.ext_getElem (by simp) fun i hi hi' => ?_
  have size : i < b.size := by simpa using hi
  have same : Bytes.at? (Bytes.fill b 0 b.size 0) i = Bytes.at? (Bytes.zeros b.size) i := by
    rw [Bytes.at?_fill, Bytes.at?_zeros, if_pos ⟨Nat.zero_le _, by omega, size⟩, if_pos size]
  simpa [Bytes.at?, size] using same

namespace Rgba

@[simp]
theorem scale_plot (p : Rgba) (x y : Int) (color : Color) : (p.plot x y color).scale = p.scale := by
  unfold plot
  split <;> rfl

theorem foldl_scale {α : Type} {f : Rgba → α → Rgba} (step : ∀ p a, (f p a).scale = p.scale) (as : List α)
    (p : Rgba) : (as.foldl f p).scale = p.scale := by
  induction as generalizing p with
  | nil => rfl
  | cons a as ih => rw [List.foldl_cons, ih, step]

@[simp]
theorem scale_draw (p : Rgba) (o : Outline) : (Outline.draw p o).scale = p.scale :=
  foldl_scale (fun p _ => p.scale_plot ..) _ p

@[simp]
theorem scale_drawAll (queue : List Outline) (p : Rgba) : (Outline.drawAll queue p).scale = p.scale :=
  foldl_scale scale_draw queue p

end Rgba

/-! ## Frames -/

theorem Buffer.reset_eq (b : Buffer) :
    b.reset = ⟨Bytes.zeros b.indexed.size, Bytes.zeros b.color.size, false⟩ := by
  rw [reset, Bytes.fill_zero, Bytes.fill_zero]

namespace Frames

/-- The buffers of both frames have the size that the scale asks for. -/
structure Sized (f : Frames) : Prop where
  pos : 0 < f.scale
  indexed : ∀ i, (f.get i).indexed.size = Screen.area * f.scale * f.scale
  color : ∀ i, (f.get i).color.size = 4 * (Screen.area * f.scale * f.scale)

theorem sized_blank (scale : Nat) : (blank scale).Sized := by
  refine ⟨Nat.lt_of_lt_of_le Nat.zero_lt_one (Nat.le_max_right ..), fun i => ?_, fun i => ?_⟩ <;>
    cases i <;> exact Bytes.size_zeros _

theorem Sized.canvas_eq {f : Frames} (sized : f.Sized) (i : Frame) :
    f.canvas i = .ok ⟨f.scale, (f.get i).indexed, sized.indexed i⟩ := dif_pos (sized.indexed i)

theorem canvas_setCanvas {f : Frames} (i : Frame) {d : Canvas} (scale : d.scale = f.scale) :
    (f.setCanvas i d).canvas i = .ok d := by
  obtain ⟨_, pixels, size⟩ := d
  cases scale
  unfold setCanvas canvas
  simp only [get_modify, if_true, scale_modify]
  exact dif_pos size

theorem canvas_setActive (f : Frames) (i j : Frame) (active : Bool) : (f.setActive i active).canvas j = f.canvas j := by
  cases i <;> cases j <;> rfl

/-- The frames after an operation on them: the scale is the same one, and the buffers fit it. -/
structure Evolves (f g : Frames) : Prop where
  scale : g.scale = f.scale
  sized : g.Sized

theorem Evolves.trans {f g h : Frames} (first : f.Evolves g) (second : g.Evolves h) : f.Evolves h :=
  ⟨second.scale.trans first.scale, second.sized⟩

namespace Sized

variable {f : Frames}

theorem refl (sized : f.Sized) : f.Evolves f := ⟨rfl, sized⟩

theorem modify {change : Buffer → Buffer} (sized : f.Sized) (i : Frame)
    (indexed : (change (f.get i)).indexed.size = (f.get i).indexed.size)
    (color : (change (f.get i)).color.size = (f.get i).color.size) : f.Evolves (f.modify i change) := by
  refine ⟨scale_modify .., ⟨?_, fun j => ?_, fun j => ?_⟩⟩
  · rw [scale_modify]
    exact sized.pos
  · rw [scale_modify, get_modify, ← sized.indexed j]
    split
    · rename_i same
      rw [← same, indexed]
    · rfl
  · rw [scale_modify, get_modify, ← sized.color j]
    split
    · rename_i same
      rw [← same, color]
    · rfl

theorem setActive (sized : f.Sized) (i : Frame) (active : Bool) : f.Evolves (f.setActive i active) :=
  sized.modify i rfl rfl

theorem deactivateAll (sized : f.Sized) : f.Evolves f.deactivateAll :=
  have first := sized.setActive .zero false
  first.trans (first.sized.setActive .one false)

theorem clear (sized : f.Sized) (i : Frame) : f.Evolves (f.clear i) := sized.modify i (Bytes.size_fill ..) rfl

theorem setCanvas {c : Canvas} (sized : f.Sized) (i : Frame) (scale : c.scale = f.scale) :
    f.Evolves (f.setCanvas i c) := by
  refine sized.modify i ?_ rfl
  rw [sized.indexed, ← scale]
  exact c.size_eq

theorem rescale (sized : f.Sized) (scale : Nat) : (f.rescale scale).2.Sized := by
  unfold Frames.rescale
  split
  · exact sized
  · exact sized_blank scale

theorem draw {drawing : Canvas → Canvas} (sized : f.Sized) (i : Frame) (scale : ∀ c, (drawing c).scale = c.scale) :
    Returns (f.draw i drawing) f.Evolves := by
  rw [Frames.draw, sized.canvas_eq]
  exact .pure (sized.setCanvas i (scale _))

theorem commit (sized : f.Sized) (i : Frame) (palette : Palette) (queue : List Outline) :
    Returns (f.commit i palette queue) f.Evolves := by
  rw [Frames.commit, sized.canvas_eq]
  refine .pure (sized.modify i rfl ?_)
  rw [sized.color]
  exact (Rgba.size_eq _).trans (by rw [Rgba.scale_drawAll]; rfl)

theorem reset_eq (sized : f.Sized) : f.reset = blank f.scale := by
  have buffer (i : Frame) : (f.get i).reset = Buffer.blank f.scale := by
    rw [Buffer.reset_eq, sized.indexed, sized.color]
    rfl
  calc f.reset = ⟨f.scale, (f.get .zero).reset, (f.get .one).reset⟩ := rfl
    _ = ⟨f.scale, Buffer.blank f.scale, Buffer.blank f.scale⟩ := by rw [buffer, buffer]
    _ = blank f.scale := by rw [blank, Nat.max_eq_left sized.pos]

theorem canvas_clear (sized : f.Sized) (i : Frame) (active : Bool) :
    ((f.clear i).setActive i active).canvas i = .ok (Canvas.blank f.scale) := by
  have cleared := sized.clear i
  have scale : ((f.clear i).setActive i active).scale = f.scale := (scale_modify ..).trans (scale_modify ..)
  have pixels : (((f.clear i).setActive i active).get i).indexed = Bytes.zeros (Screen.area * f.scale * f.scale) := by
    rw [← sized.indexed i, ← Bytes.fill_zero]
    simp [Frames.setActive, Frames.clear, Buffer.clear]
  rw [(cleared.sized.setActive i active).sized.canvas_eq]
  simp only [scale, pixels]
  rfl

end Sized

end Frames

/-! ## Contexts -/

namespace Context

/-- The context after an engine did something: the armed addresses are the same, and the frames fit the same scale. -/
structure Evolves (c d : Context) : Prop where
  breakpoints : d.breakpoints = c.breakpoints
  frames : c.frames.Evolves d.frames

theorem Evolves.trans {c d e : Context} (first : c.Evolves d) (second : d.Evolves e) : c.Evolves e :=
  ⟨second.breakpoints.trans first.breakpoints, first.frames.trans second.frames⟩

variable {c : Context}

theorem evolves_refl (sized : c.frames.Sized) : c.Evolves c := ⟨rfl, sized.refl⟩

theorem evolves_setActive (sized : c.frames.Sized) (i : Frame) (active : Bool) : c.Evolves (c.setActive i active) :=
  ⟨rfl, sized.setActive i active⟩

theorem evolves_clear (sized : c.frames.Sized) (i : Frame) : c.Evolves (c.clear i) := ⟨rfl, sized.clear i⟩

theorem evolves_outline (sized : c.frames.Sized) (config : Config) (o : Outline) : c.Evolves (c.outline config o) := by
  unfold outline
  split
  · exact ⟨rfl, sized.refl⟩
  · exact evolves_refl sized

theorem draw_returns {drawing : Canvas → Canvas} (sized : c.frames.Sized) (i : Frame)
    (scale : ∀ d, (drawing d).scale = d.scale) : Returns (c.draw i drawing) c.Evolves :=
  (sized.draw i scale).bind fun _ frames => .pure ⟨rfl, frames⟩

theorem commit_returns (sized : c.frames.Sized) (m : Machine) (i : Frame) : Returns (c.commit m i) c.Evolves :=
  (sized.commit i (Palette.read m) c.outlines).bind fun _ frames => .pure ⟨rfl, frames⟩

end Context

end Redraw

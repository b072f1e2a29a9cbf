import Redraw.Canvas.Affine
import Redraw.Canvas.Pixels
import Redraw.Canvas.Sprite
import Redraw.Canvas.Trapezoid

/-!
# Drawing keeps the scale

No drawing operation changes the scale of a canvas, so none changes the number of its pixels either. Most of them are
folds over spans or positions, which keep the scale when one step does (`foldl_scale`).
-/

namespace Redraw

namespace Canvas

theorem foldl_scale {α : Type} {f : Canvas → α → Canvas} (step : ∀ c a, (f c a).scale = c.scale) (as : List α)
    (c : Canvas) : (as.foldl f c).scale = c.scale := by
  induction as generalizing c with
  | nil => rfl
  | cons a as ih => rw [List.foldl_cons, ih, step]

/-! ## Triangles -/

@[simp]
theorem scale_paintTexels (c : Canvas) (s : Span) (u v : CoordinateRun) (texture : Texture) :
    (c.paintTexels s u v texture).scale = c.scale := by
  rw [paintTexels_eq_paintSpan, scale_paintSpan]

@[simp]
theorem scale_fillTriangle (c : Canvas) (t : Triangle) (color : UInt8) : (c.fillTriangle t color).scale = c.scale :=
  foldl_scale (fun c _ => scale_fillSpan c ..) _ c

@[simp]
theorem scale_fillAffineTriangle (c : Canvas) (t : Triangle) (texture : Texture) :
    (c.fillAffineTriangle t texture).scale = c.scale :=
  foldl_scale (fun c _ => scale_paintTexels c ..) _ c

/-! ## Trapezoids -/

@[simp]
theorem scale_fillTrapezoid (c : Canvas) (t : Trapezoid) (color : UInt8) : (c.fillTrapezoid t color).scale = c.scale :=
  foldl_scale (fun c _ => scale_fillSpan c ..) _ c

@[simp]
theorem scale_fillTexturedTrapezoid (c : Canvas) (t : Trapezoid) (uv : TrapezoidUv) (texture : Address) (view : View) :
    (c.fillTexturedTrapezoid t uv texture view).scale = c.scale :=
  foldl_scale (fun c _ => scale_paintSpan c ..) _ c

/-! ## Sprites -/

@[simp]
theorem scale_fillBlock (c : Canvas) (x y : Int) (v : UInt8) : (c.fillBlock x y v).scale = c.scale := by
  unfold fillBlock
  split
  · exact foldl_scale (fun c _ => scale_fillSpan c ..) _ c
  · rfl

@[simp]
theorem scale_drawTexel (c : Canvas) (s : FixedSprite) (view : View) (x y : Int) :
    (c.drawTexel s view x y).scale = c.scale := by
  unfold drawTexel
  dsimp only
  split
  · rfl
  · exact scale_fillBlock ..

@[simp]
theorem scale_drawFixedSprite (c : Canvas) (s : FixedSprite) (view : View) : (c.drawFixedSprite s view).scale = c.scale :=
  foldl_scale (fun c _ => scale_drawTexel c ..) _ c

@[simp]
theorem scale_drawSample (c : Canvas) (s : StretchedSprite) (view : View) (x y : Int) :
    (c.drawSample s view x y).scale = c.scale := by
  unfold drawSample
  dsimp only
  split
  · rfl
  · exact scale_setPixel ..

@[simp]
theorem scale_drawStretchedSprite (c : Canvas) (s : StretchedSprite) (view : View) :
    (c.drawStretchedSprite s view).scale = c.scale :=
  foldl_scale (fun c _ => scale_drawSample c ..) _ c

/-! ## Bitmaps -/

@[simp]
theorem scale_setRow (c : Canvas) (row : Nat) (line : ByteArray) : (c.setRow row line).scale = c.scale := rfl

@[simp]
theorem scale_blitRow (bitmap : ByteArray) (c : Canvas) (y : Nat) : (blitRow bitmap c y).scale = c.scale :=
  foldl_scale (fun c _ => scale_setRow c ..) _ c

/-- A bitmap of native size can be copied to a canvas that has a scale. -/
theorem blit_of_size {c : Canvas} {bitmap : ByteArray} (pos : 0 < c.scale) (size : bitmap.size = Screen.area) :
    ∃ d, c.blit bitmap = .ok d ∧ d.scale = c.scale := by
  unfold blit
  by_cases one : c.scale = 1
  · have fits : bitmap.size = c.pixels.size := by
      rw [size, c.size_eq, one]
      rfl
    rw [if_pos one, dif_pos fits]
    exact ⟨_, rfl, rfl⟩
  · have rows : bitmap.size / Screen.width = Screen.height := by
      rw [size]
      rfl
    rw [if_neg one, rows, if_neg (Nat.lt_irrefl _), if_neg fun zero => Nat.ne_of_gt pos zero.1]
    exact ⟨_, rfl, foldl_scale (scale_blitRow bitmap) _ c⟩

end Canvas

end Redraw

import Mathlib.Logic.Basic
import Redraw.Proofs.Checked.Canvas
import Redraw.Proofs.Engine.Rows

/-!
# Checked trapezoids, regions and sprites

Texture coordinates divide by the scale and by the number of columns of a row, and stretched sprites by the extents of their
rectangle. Rows and rectangles without columns are passed over before, so none of these divisors is zero.
-/

namespace Redraw

theorem Canvas.pixel?_foldl_setPixel (xs : List Int) (c : Canvas) (y : Int) (color : Int → UInt8) (x' y' : Int) :
    (xs.foldl (fun d x => d.setPixel x y (color x)) c).pixel? x' y' =
      if y' = y ∧ x' ∈ xs ∧ Screen.Contains c.scale x' y' then some (color x') else c.pixel? x' y' := by
  have drawn : (xs.foldl (fun d x => d.setPixel x y (color x)) c).pixel? x' y' =
      if Screen.Contains c.scale x' y' ∧ ∃ x ∈ xs, x' = x ∧ y' = y then some (color x') else c.pixel? x' y' := by
    refine pixel?_foldl xs c fun d _ x _ => ⟨d.scale_setPixel .., ?_⟩
    rw [pixel?_setPixel]
    by_cases here : x' = x ∧ y' = y
    · obtain ⟨rfl, rfl⟩ := here
      simp
    · simp [here, ← and_assoc]
  rw [drawn]
  refine if_congr ⟨?_, ?_⟩ rfl rfl
  · rintro ⟨inside, x, mem, rfl, row⟩
    exact ⟨row, mem, inside⟩
  · rintro ⟨row, mem, inside⟩
    exact ⟨inside, x', mem, rfl, row⟩

/-- Setting the pixels of a run one by one paints the run. -/
theorem Canvas.foldl_setPixel_eq_paintSpan (c : Canvas) (y left right : Int) (color : Int → UInt8) :
    (between (max left 0) (min right c.width)).foldl (fun d x => d.setPixel x y (color x)) c =
      c.paintSpan y left right color := by
  have scale := foldl_scale (f := fun d x => d.setPixel x y (color x)) (fun d x => d.scale_setPixel ..)
    (between (max left 0) (min right c.width)) c
  refine ext_pixel? (scale.trans (c.scale_paintSpan ..).symm) fun x' y' => ?_
  have columns (contains : Screen.Contains c.scale x' y') :
      x' ∈ between (max left 0) (min right c.width) ↔ left ≤ x' ∧ x' < right := by
    obtain ⟨nonneg, inside, -⟩ := contains
    rw [mem_between, width]
    omega
  rw [pixel?_foldl_setPixel, pixel?_paintSpan]
  by_cases contains : Screen.Contains c.scale x' y'
  · simp only [columns contains, contains, and_true]
  · simp only [contains, and_false, if_false]

namespace Checked

variable {c : Canvas}

/-! ## Flat runs -/

def fillTrapezoid (c : Canvas) (t : Trapezoid) (color : UInt8) : Checked Canvas :=
  (t.spans c.scale).foldlM (fun c s => fillSpan c s.y s.left s.right color) c

def fillRow (a : DownhillJam.Area) (c : Canvas) (y : Nat) (e : DownhillJam.Edges) : Checked Canvas :=
  let left := max (e.left / 0x8000) 0
  let right := min (e.right / 0x8000) c.width
  if left < right then fillSpan c (wrap32 (a.top c.scale + y)) left right a.color else return c

def fillRows (a : DownhillJam.Area) (c : Canvas) (y : Nat) (e : DownhillJam.Edges) : Nat → Checked Canvas
  | 0 => return c
  | n + 1 => do fillRows a (← fillRow a c y e) (y + 1) (a.moveEdges e) n

/-- All rows are walked, also those below the picture. -/
def fillArea (a : DownhillJam.Area) (c : Canvas) : Checked Canvas :=
  fillRows a c 0 (a.firstEdges c.scale) (a.rows c.scale)

theorem fillTrapezoid_eq (fits : Fits c.scale) (t : Trapezoid) (color : UInt8) :
    fillTrapezoid c t color = .ok (c.fillTrapezoid t color) :=
  foldlM_canvas (fun d _ => d.scale_fillSpan ..) fun _ same _ _ => fillSpan_eq (same ▸ fits) ..

theorem fillRow_eq (fits : Fits c.scale) (a : DownhillJam.Area) (y : Nat) (e : DownhillJam.Edges) :
    fillRow a c y e = .ok (a.fillRow c y e) := by
  unfold fillRow DownhillJam.Area.fillRow
  dsimp only
  split
  · exact fillSpan_eq fits ..
  · rfl

theorem fillRows_eq (fits : Fits c.scale) (a : DownhillJam.Area) (y : Nat) (e : DownhillJam.Edges) (n : Nat) :
    fillRows a c y e n = .ok (a.fillRows c y e n) := by
  induction n generalizing c y e with
  | zero => rfl
  | succ n ih =>
    rw [fillRows, fillRow_eq fits, ok_bind]
    exact ih (by rwa [DownhillJam.Area.scale_fillRow]) _ _

theorem fillArea_eq (fits : Fits c.scale) (a : DownhillJam.Area) : fillArea a c = .ok (a.fill c) := by
  rw [DownhillJam.Area.fill_eq_fillRows fits.2]
  exact fillRows_eq fits ..

/-! ## Textured trapezoids -/

def onEdge (start delta : UInt16) (scale : Nat) (row : Int) : Checked Int :=
  return start.toNat + (← divide (signed16 delta * row) scale)

def coordinate (e : EdgeCoordinate) (scale : Nat) (row step steps : Int) : Checked Int := do
  let left ← onEdge e.left e.leftDelta scale row
  let right ← onEdge e.right e.rightDelta scale row
  return low16 (left + (← divide ((right - left) * step) steps))

def texelAddress (uv : TrapezoidUv) (scale : Nat) (texture : Address) (s : TrapezoidSpan) (x : Int) : Checked Address := do
  let u ← coordinate uv.u scale s.row (x - s.left) (s.right - s.left)
  let v ← coordinate uv.v scale s.row (x - s.left) (s.right - s.left)
  return texture + addressOf (v / 0x100 * 0x100) + addressOf (u / 0x100)

/-- Paints a run pixel by pixel, from its first column on the canvas to its last. -/
def paintRun (uv : TrapezoidUv) (texture : Address) (view : View) (scale : Nat) (c : Canvas) (s : TrapezoidSpan) :
    Checked Canvas :=
  (between (max s.left 0) (min s.right c.width)).foldlM (fun c x => do
    setPixel c x s.y (view.read (← texelAddress uv scale texture s x))) c

def fillTexturedTrapezoid (c : Canvas) (t : Trapezoid) (uv : TrapezoidUv) (texture : Address) (view : View) :
    Checked Canvas :=
  (t.spans c.scale).foldlM (paintRun uv texture view c.scale) c

section Textured

variable {scale : Nat} (pos : 0 < scale)

include pos

theorem onEdge_eq (start delta : UInt16) (row : Int) :
    onEdge start delta scale row = .ok (EdgeCoordinate.onEdge start delta scale row) := by
  rw [onEdge, divide_of_pos (by omega)]
  rfl

theorem coordinate_eq {steps : Int} (columns : 0 < steps) (e : EdgeCoordinate) (row step : Int) :
    coordinate e scale row step steps = .ok (e.value scale row step steps) := by
  rw [coordinate, onEdge_eq pos, ok_bind, onEdge_eq pos, ok_bind, divide_of_pos columns]
  rfl

theorem texelAddress_eq {s : TrapezoidSpan} (columns : s.left < s.right) (uv : TrapezoidUv) (texture : Address) (x : Int) :
    texelAddress uv scale texture s x = .ok (uv.address scale texture s x) := by
  have steps : 0 < s.right - s.left := by omega
  rw [texelAddress, coordinate_eq pos steps, ok_bind, coordinate_eq pos steps]
  rfl

theorem paintRun_eq {s : TrapezoidSpan} (columns : s.left < s.right) (uv : TrapezoidUv) (texture : Address) (view : View)
    (c : Canvas) :
    paintRun uv texture view scale c s =
      .ok (c.paintSpan s.y s.left s.right fun x => view.read (uv.address scale texture s x)) := by
  rw [← Canvas.foldl_setPixel_eq_paintSpan]
  refine foldlM_canvas (fun d x => d.scale_setPixel ..) fun d _ x _ => ?_
  rw [texelAddress_eq pos columns, ok_bind, setPixel_eq]

end Textured

theorem fillTexturedTrapezoid_eq (fits : Fits c.scale) (t : Trapezoid) (uv : TrapezoidUv) (texture : Address)
    (view : View) : fillTexturedTrapezoid c t uv texture view = .ok (c.fillTexturedTrapezoid t uv texture view) := by
  refine foldlM_canvas (fun d s => d.scale_paintSpan ..) fun d _ s mem => ?_
  -- A row is a span only when it has columns, and their number is what its coordinates divide by.
  have columns : s.left < s.right := by
    simp only [Trapezoid.spans, List.mem_filter, Bool.and_eq_true, decide_eq_true_eq] at mem
    exact mem.2.1.1
  exact paintRun_eq fits.1 columns ..

/-! ## Sprites -/

def drawTexel (c : Canvas) (s : FixedSprite) (view : View) (x y : Int) : Checked Canvas :=
  let texel := s.texel view x y
  if texel = 0 then return c else fillBlock c (s.x + x) (s.y + y) (texel ||| s.mask)

def drawFixedSprite (c : Canvas) (s : FixedSprite) (view : View) : Checked Canvas :=
  s.visiblePositions.foldlM (fun c p => drawTexel c s view p.1 p.2) c

def interpolate (start stop step steps : Int) : Checked Int := return start + (← divide (step * (stop - start)) steps)

def drawSample (c : Canvas) (s : StretchedSprite) (view : View) (x y : Int) : Checked Canvas := do
  let a := s.area c.scale
  let v ← interpolate s.v0 s.v1 (y - a.top) (a.bottom - a.top)
  let u ← interpolate s.u0 s.u1 (x - a.left) (a.right - a.left)
  let texel := s.texel view u v
  if texel = 0 then return c else setPixel c x y texel

def drawStretchedSprite (c : Canvas) (s : StretchedSprite) (view : View) : Checked Canvas :=
  (s.positions c.scale).foldlM (fun c p => drawSample c s view p.1 p.2) c

theorem interpolate_eq {steps : Int} (pos : 0 < steps) (start stop step : Int) :
    interpolate start stop step steps = .ok (Redraw.interpolate start stop step steps) := by
  rw [interpolate, divide_of_pos pos]
  rfl

theorem drawTexel_eq (fits : Fits c.scale) (s : FixedSprite) (view : View) (x y : Int) :
    drawTexel c s view x y = .ok (c.drawTexel s view x y) := by
  unfold drawTexel Canvas.drawTexel
  dsimp only
  split
  · rfl
  · exact fillBlock_eq fits ..

theorem drawFixedSprite_eq (fits : Fits c.scale) (s : FixedSprite) (view : View) :
    drawFixedSprite c s view = .ok (c.drawFixedSprite s view) :=
  foldlM_canvas (fun d _ => d.scale_drawTexel ..) fun _ same _ _ => drawTexel_eq (same ▸ fits) ..

theorem drawSample_eq {s : StretchedSprite} (solid : (s.area c.scale).isEmpty = false) (view : View) (x y : Int) :
    drawSample c s view x y = .ok (c.drawSample s view x y) := by
  simp only [StretchedSprite.Area.isEmpty, Bool.or_eq_false_iff, decide_eq_false_iff_not] at solid
  have columns : 0 < (s.area c.scale).right - (s.area c.scale).left := by omega
  have rows : 0 < (s.area c.scale).bottom - (s.area c.scale).top := by omega
  unfold drawSample Canvas.drawSample StretchedSprite.sample
  dsimp only
  rw [interpolate_eq rows, ok_bind, interpolate_eq columns, ok_bind, setPixel_eq]
  split <;> rfl

theorem drawStretchedSprite_eq (c : Canvas) (s : StretchedSprite) (view : View) :
    drawStretchedSprite c s view = .ok (c.drawStretchedSprite s view) := by
  refine foldlM_canvas (fun d _ => d.scale_drawSample ..) fun d same p mem => ?_
  -- A sprite of an empty area has no positions, so no sample divides by an empty extent.
  have solid : (s.area d.scale).isEmpty = false := by
    rw [same]
    cases empty : (s.area c.scale).isEmpty with
    | false => rfl
    | true =>
      rw [StretchedSprite.positions, if_pos empty] at mem
      cases mem
  exact drawSample_eq solid view p.1 p.2

end Checked

end Redraw

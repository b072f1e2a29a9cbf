import Redraw.Canvas.Affine
import Redraw.Proofs.Checked.Canvas

/-!
# Checked triangles

Reciprocals come from the table or divide by a number that is past its end; the steps of texture coordinates divide by the
scale; and the columns of every row are clamped to the width. On a canvas that fits, filling a triangle cannot fail,
whatever its vertices are.
-/

namespace Redraw.Checked

/-! ## Reciprocals -/

/-- The entry of the table, or the division where there is none. -/
def foundOr (found? : Option Nat) (magnitude : Nat) : Checked Int :=
  match found? with
  | some r => return r
  | none => divide 0x40000000 magnitude

def reciprocal (n : Int) : Checked Int := do
  let r ← foundOr reciprocalTable[n.natAbs]? n.natAbs
  return if n < 0 then -r else r

def ratio (num den : Int) : Checked Int := return num * (← reciprocal den)

def slope (dx dy : Int) : Checked Int := return (← ratio dx dy) / 0x4000

theorem foundOr_eq {found? : Option Nat} {magnitude : Nat} (past : found? = none → magnitude ≠ 0) :
    foundOr found? magnitude = .ok ((found?.getD (0x40000000 / magnitude) : Nat) : Int) := by
  cases found? with
  | some r => rfl
  | none =>
    have pos : 0 < (magnitude : Int) := Int.natCast_pos.2 (Nat.pos_of_ne_zero (past rfl))
    exact (divide_of_pos pos _).trans (congrArg Except.ok (Int.ofNat_tdiv 0x40000000 magnitude).symm)

theorem ne_zero_of_not_tabled {n : Nat} (entry : reciprocalTable[n]? = none) : n ≠ 0 := by
  rw [reciprocalTable, Array.getElem?_ofFn] at entry
  split at entry
  · cases entry
  · rename_i past
    intro zero
    rw [zero] at past
    exact past (by decide)

theorem reciprocal_eq (n : Int) : reciprocal n = .ok (Redraw.reciprocal n) := by
  rw [reciprocal, foundOr_eq ne_zero_of_not_tabled]
  rfl

theorem ratio_eq (num den : Int) : ratio num den = .ok (Redraw.ratio num den) := by
  rw [ratio, reciprocal_eq]
  rfl

theorem slope_eq (dx dy : Int) : slope dx dy = .ok (Redraw.slope dx dy) := by
  rw [slope, ratio_eq]
  rfl

/-! ## Runs of triangles -/

def edgeBetween (upper lower : Vertex) (scale : Nat) : Checked Edge := do
  let slope ← slope (lower.x - upper.x) (lower.y - upper.y)
  return ⟨toOutput upper.x scale, toOutput upper.y scale, slope⟩

def rowSpan (width : Nat) (left right : Edge) (y : Int) : Checked Span := do
  let center := y * 0x10000 + 0x8000
  let first ← clampTo (firstPixel (left.xAt center)) 0 (wrap32 width)
  let last ← clampTo (firstPixel (right.xAt center)) 0 (wrap32 width)
  return ⟨y, first, last⟩

def halfSpans (width height scale : Nat) (upper lower : Vertex) (left right : Edge) : Checked (List Span) := do
  let first := max (firstPixel (toOutput upper.y scale)) 0
  let last := min (firstPixel (toOutput lower.y scale)) height
  let spans ← (between first last).mapM (rowSpan width left right)
  return spans.filter fun s => s.left < s.right

/-- The runs of a sorted triangle that has a height. -/
def sortedSpans (width height scale : Nat) (t : Triangle) : Checked (List Span) := do
  let ab ← edgeBetween t.a t.b scale
  let bc ← edgeBetween t.b t.c scale
  let ac ← edgeBetween t.a t.c scale
  if t.middleOnLeft ab ac then
    return (← halfSpans width height scale t.a t.b ab ac) ++ (← halfSpans width height scale t.b t.c bc ac)
  else
    return (← halfSpans width height scale t.a t.b ac ab) ++ (← halfSpans width height scale t.b t.c ac bc)

theorem edgeBetween_eq (upper lower : Vertex) (scale : Nat) :
    edgeBetween upper lower scale = .ok (Edge.between upper lower scale) := by
  rw [edgeBetween, slope_eq]
  rfl

variable {width : Nat}

theorem clampTo_width (small : width < 2147483648) (x : Int) :
    clampTo x 0 (wrap32 width) = .ok (clamp x 0 width) := by
  rw [wrap32_eq_self (by omega) (by omega), clampTo, if_neg (by omega)]
  rfl

theorem rowSpan_eq (small : width < 2147483648) (left right : Edge) (y : Int) :
    rowSpan width left right y = .ok (Triangle.rowSpan width left right y) := by
  unfold rowSpan
  dsimp only
  rw [clampTo_width small, ok_bind, clampTo_width small]
  rfl

theorem halfSpans_eq (small : width < 2147483648) (height scale : Nat) (upper lower : Vertex) (left right : Edge) :
    halfSpans width height scale upper lower left right =
      .ok (Triangle.halfSpans width height scale upper lower left right) := by
  unfold halfSpans
  dsimp only
  rw [mapM_eq fun y _ => rowSpan_eq small left right y]
  rfl

theorem sortedSpans_eq (small : width < 2147483648) (height scale : Nat) {t : Triangle} (tall : t.a.y ≠ t.c.y) :
    sortedSpans width height scale t = .ok (t.sortedSpans width height scale) := by
  unfold sortedSpans Triangle.sortedSpans
  rw [if_neg tall, edgeBetween_eq, ok_bind, edgeBetween_eq, ok_bind, edgeBetween_eq, ok_bind]
  dsimp only
  split
  · rw [halfSpans_eq small, ok_bind, halfSpans_eq small]
    rfl
  · rw [halfSpans_eq small, ok_bind, halfSpans_eq small]
    rfl

/-! ## Filling -/

def fillTriangle (c : Canvas) (t : Triangle) (color : UInt8) : Checked Canvas := do
  let t := t.sorted
  if t.a.y = t.c.y then return c
  let spans ← sortedSpans c.width c.height c.scale t
  spans.foldlM (fun c s => fillSpan c s.y s.left s.right color) c

def gradient (t : Triangle) (coordinate : Vertex → Int) : Checked Gradient := do
  let heightAB := t.b.y - t.a.y
  let xSlope ← slope (t.c.x - t.a.x) (t.c.y - t.a.y)
  let slopeAC ← slope (coordinate t.c - coordinate t.a) (t.c.y - t.a.y)
  let xAtB := t.a.x * 0x10000 + xSlope * heightAB
  let valueAtB := coordinate t.a * 0x10000 + slopeAC * heightAB
  let runWidth := wrap32 ((t.b.x * 0x10000 - xAtB + 0x8000) / 0x10000)
  let runDelta := coordinate t.b * 0x10000 - valueAtB
  let dx := runDelta * (← ratio 1 runWidth) / 0x40000000
  return ⟨coordinate t.a * 0x10000, dx, slopeAC - dx * xSlope / 0x10000⟩

def centerFrom (scale : Nat) (pixel origin : Int) : Checked Int :=
  return (← divide ((pixel * 0x10000 + 0x8000) * 8) scale) - origin * 0x10000

def along (g : Gradient) (upper : Vertex) (scale : Nat) (s : Span) : Checked CoordinateRun := do
  let x ← centerFrom scale s.left upper.x
  let y ← centerFrom scale s.y upper.y
  let step ← divide (g.dx * 8) scale
  return ⟨g.value x y, step⟩

/-- The texels are stored in a slice of the row. -/
def paintTexels (c : Canvas) (s : Span) (u v : CoordinateRun) (texture : Texture) : Checked Canvas := do
  let _ ← span? c s.y s.left s.right
  return c.paintTexels s u v texture

def fillAffineTriangle (c : Canvas) (t : Triangle) (texture : Texture) : Checked Canvas := do
  let t := t.sorted
  if t.a.y = t.c.y then return c
  let u ← gradient t (·.u)
  let v ← gradient t (·.v)
  let spans ← sortedSpans c.width c.height c.scale t
  spans.foldlM (fun c s => do
    let uRun ← along u t.a c.scale s
    let vRun ← along v t.a c.scale s
    paintTexels c s uRun vRun texture) c

theorem gradient_eq (t : Triangle) (coordinate : Vertex → Int) :
    gradient t coordinate = .ok (Gradient.ofTriangle t coordinate) := by
  unfold gradient
  dsimp only
  rw [slope_eq, ok_bind, slope_eq, ok_bind, ratio_eq]
  rfl

theorem centerFrom_eq {scale : Nat} (pos : 0 < scale) (pixel origin : Int) :
    centerFrom scale pixel origin = .ok (Redraw.centerFrom scale pixel origin) := by
  rw [centerFrom, divide_of_pos (by omega)]
  rfl

theorem along_eq {scale : Nat} (pos : 0 < scale) (g : Gradient) (upper : Vertex) (s : Span) :
    along g upper scale s = .ok (CoordinateRun.along g upper scale s) := by
  rw [along, centerFrom_eq pos, ok_bind, centerFrom_eq pos, ok_bind, divide_of_pos (by omega)]
  rfl

variable {c : Canvas}

theorem fillTriangle_eq (fits : Fits c.scale) (t : Triangle) (color : UInt8) :
    fillTriangle c t color = .ok (c.fillTriangle t color) := by
  unfold fillTriangle Canvas.fillTriangle Triangle.spans
  dsimp only
  by_cases flat : t.sorted.a.y = t.sorted.c.y
  · rw [if_pos flat, Triangle.sortedSpans, if_pos flat]
    rfl
  · rw [if_neg flat, sortedSpans_eq fits.width_lt _ _ flat]
    exact foldlM_canvas (fun d s => d.scale_fillSpan ..) fun d same s _ => fillSpan_eq (same ▸ fits) ..

theorem fillAffineTriangle_eq (fits : Fits c.scale) (t : Triangle) (texture : Texture) :
    fillAffineTriangle c t texture = .ok (c.fillAffineTriangle t texture) := by
  unfold fillAffineTriangle Canvas.fillAffineTriangle
  dsimp only
  by_cases flat : t.sorted.a.y = t.sorted.c.y
  · rw [if_pos flat, Triangle.sortedSpans, if_pos flat]
    rfl
  · rw [if_neg flat, gradient_eq, ok_bind, gradient_eq, ok_bind, sortedSpans_eq fits.width_lt _ _ flat]
    refine foldlM_canvas (fun d s => d.scale_paintTexels ..) fun d same s _ => ?_
    have pos : 0 < d.scale := same ▸ fits.1
    rw [along_eq pos, ok_bind, along_eq pos, ok_bind, paintTexels, span?_eq (same ▸ fits)]
    rfl

end Redraw.Checked

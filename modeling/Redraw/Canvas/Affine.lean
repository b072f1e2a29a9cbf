import Redraw.Canvas.Triangle

/-!
# Textured triangles

Texture coordinates are planes over the triangle. Their steps come from the run through the middle vertex, the
widest one; every row starts from the value at the center of its first pixel and steps along.
-/

namespace Redraw

/-- A source of texels, by texel coordinates. -/
abbrev Texture := Int → Int → UInt8

/-- A texture coordinate over a triangle: its value at the upper vertex and its steps per eighth of a pixel, with
sixteen fraction bits. -/
structure Gradient where
  origin : Int
  dx : Int
  dy : Int
  deriving DecidableEq, Repr

namespace Gradient

def ofTriangle (t : Triangle) (coordinate : Vertex → Int) : Gradient :=
  let heightAB := t.b.y - t.a.y
  let xSlope := slope (t.c.x - t.a.x) (t.c.y - t.a.y)
  let slopeAC := slope (coordinate t.c - coordinate t.a) (t.c.y - t.a.y)
  let xAtB := t.a.x * 0x10000 + xSlope * heightAB
  let valueAtB := coordinate t.a * 0x10000 + slopeAC * heightAB
  let runWidth := wrap32 ((t.b.x * 0x10000 - xAtB + 0x8000) / 0x10000)
  let runDelta := coordinate t.b * 0x10000 - valueAtB
  let dx := runDelta * ratio 1 runWidth / 0x40000000
  ⟨coordinate t.a * 0x10000, dx, slopeAC - dx * xSlope / 0x10000⟩

/-- The value at an offset from the upper vertex, in eighths of a pixel with sixteen fraction bits. -/
def value (g : Gradient) (x y : Int) : Int := g.origin + g.dx * x / 0x10000 + g.dy * y / 0x10000

def step (g : Gradient) (scale : Nat) : Int := (g.dx * 8).tdiv scale

end Gradient

/-- The center of an output pixel in eighths of a logical pixel with sixteen fraction bits, from `origin` on. -/
def centerFrom (scale : Nat) (pixel origin : Int) : Int :=
  ((pixel * 0x10000 + 0x8000) * 8).tdiv scale - origin * 0x10000

/-- A texture coordinate along a run of pixels: the value at a pixel and the step to the next, with nineteen fraction bits
of a texel. -/
structure CoordinateRun where
  value : Int
  step : Int
  deriving DecidableEq, Repr

namespace CoordinateRun

/-- The values of a plane along a run of a triangle whose upper vertex is `upper`, from its first pixel on. -/
def along (g : Gradient) (upper : Vertex) (scale : Nat) (s : Span) : CoordinateRun where
  value := g.value (centerFrom scale s.left upper.x) (centerFrom scale s.y upper.y)
  step := g.step scale

def next (r : CoordinateRun) : CoordinateRun := { r with value := r.value + r.step }

def texel (r : CoordinateRun) : Int := wrap32 (r.value / 0x80000)

/-- The texel that the run reaches after some steps. -/
def texelAfter (r : CoordinateRun) (steps : Int) : Int := wrap32 ((r.value + steps * r.step) / 0x80000)

theorem texelAfter_zero (r : CoordinateRun) : r.texelAfter 0 = r.texel := by
  rw [texelAfter, Int.zero_mul, Int.add_zero, texel]

theorem texelAfter_next (r : CoordinateRun) (steps : Int) : r.next.texelAfter steps = r.texelAfter (steps + 1) := by
  rw [texelAfter, texelAfter, next, Int.add_mul, Int.one_mul, Int.add_comm (steps * r.step), Int.add_assoc]

end CoordinateRun

/-! ## Runs of texels -/

/-- Stores the texels of a run in the `n` bytes from index `i` on, one step after the other. -/
def Texture.store (texture : Texture) (b : ByteArray) (i : Nat) (u v : CoordinateRun) : Nat → ByteArray
  | 0 => b
  | n + 1 => texture.store (Bytes.put b i (texture u.texel v.texel)) (i + 1) u.next v.next n

/-- A run that is stepped along has at each byte the texel of the number of steps up to there. -/
theorem Texture.store_eq_paint (texture : Texture) (b : ByteArray) (i : Nat) (u v : CoordinateRun) (k n : Nat) :
    texture.store b i u v n =
      Bytes.paint b i (fun x => texture (u.texelAfter (x - k)) (v.texelAfter (x - k))) k n := by
  induction n generalizing b i u v k with
  | zero => rfl
  | succ n ih =>
    have step (x : Nat) : (x : Int) - (k + 1 : Nat) + 1 = x - k := by omega
    rw [store, ih _ _ _ _ (k + 1), Bytes.paint, Int.sub_self, CoordinateRun.texelAfter_zero,
      CoordinateRun.texelAfter_zero]
    simp only [CoordinateRun.texelAfter_next, step]

namespace Canvas

def paintTexels (c : Canvas) (s : Span) (u v : CoordinateRun) (texture : Texture) : Canvas :=
  match c.span? s.y s.left s.right with
  | some (first, last) =>
    ⟨c.scale, texture.store c.pixels (s.y.toNat * c.width + first) u v (last - first),
      by rw [texture.store_eq_paint _ _ _ _ 0, Bytes.size_paint, c.size_eq]⟩
  | none => c

/-- Stepping along a run paints it with the texel of the number of steps from its first pixel on the canvas. -/
theorem paintTexels_eq_paintSpan (c : Canvas) (s : Span) (u v : CoordinateRun) (texture : Texture) :
    c.paintTexels s u v texture = c.paintSpan s.y s.left s.right fun x =>
      texture (u.texelAfter (x - c.border s.left)) (v.texelAfter (x - c.border s.left)) := by
  unfold paintTexels paintSpan
  cases found : c.span? s.y s.left s.right with
  | none => rfl
  | some columns =>
    obtain ⟨first, last⟩ := columns
    obtain rfl : first = c.border s.left := by
      rw [span?, Option.ite_none_right_eq_some] at found
      exact (Prod.mk.inj (Option.some.inj found.2)).1.symm
    dsimp only
    congr 1
    exact texture.store_eq_paint ..

def fillAffineTriangle (c : Canvas) (t : Triangle) (texture : Texture) : Canvas :=
  let t := t.sorted
  let u := Gradient.ofTriangle t (·.u)
  let v := Gradient.ofTriangle t (·.v)
  (t.sortedSpans c.width c.height c.scale).foldl
    (fun c s => c.paintTexels s (.along u t.a c.scale s) (.along v t.a c.scale s) texture) c

/-- Fills a triangle with the texels of a texture, on a canvas of any scale. At scale zero there is no step from one
output pixel to the next, so a triangle that has a height cannot be filled. -/
def fillAffineTriangle? (c : Canvas) (t : Triangle) (texture : Texture) : Except Fault Canvas :=
  if c.scale = 0 ∧ t.sorted.a.y ≠ t.sorted.c.y then .error .zeroScale else .ok (c.fillAffineTriangle t texture)

end Canvas

end Redraw

import Redraw.Proofs.Triangle.Extent

/-!
# The texels of a textured fill

Every run of a textured fill starts from the value of the plane at its first pixel and goes on in steps. At scale one nothing
is rounded on the way along the run, so each pixel shows the texel that the plane gives at its own center, wherever the run
starts (`CoordinateRun.texelAfter_along`). A textured fill sets the pixels that a plain fill sets, to these texels
(`Canvas.pixel?_fillAffineTriangle`), and which texels it reads can be told from what it shows (`Triangle.samples_iff`).
-/

namespace Redraw

/-- The value of a plane at the center of a logical pixel, with sixteen fraction bits. -/
def Gradient.atPixel (g : Gradient) (upper : Vertex) (X Y : Int) : Int :=
  g.origin + g.dx * (X * 8 + 4 - upper.x) + g.dy * (Y * 8 + 4 - upper.y)

theorem centerFrom_one (pixel origin : Int) : centerFrom 1 pixel origin = (pixel * 8 + 4 - origin) * 0x10000 := by
  rw [centerFrom, Int.natCast_one, Int.tdiv_one]
  ring

theorem Gradient.value_center (g : Gradient) (upper : Vertex) (X Y : Int) :
    g.value (centerFrom 1 X upper.x) (centerFrom 1 Y upper.y) = g.atPixel upper X Y := by
  rw [value, centerFrom_one, centerFrom_one, ← mul_assoc, ← mul_assoc, Int.mul_ediv_cancel _ (by decide),
    Int.mul_ediv_cancel _ (by decide), atPixel]

theorem CoordinateRun.texelAfter_along (g : Gradient) (upper : Vertex) (s : Span) (X : Int) :
    (along g upper 1 s).texelAfter (X - s.left) = wrap32 (g.atPixel upper X s.y / 0x80000) := by
  have step : g.step 1 = g.dx * 8 := by rw [Gradient.step, Int.natCast_one, Int.tdiv_one]
  have sum : g.atPixel upper s.left s.y + (X - s.left) * (g.dx * 8) = g.atPixel upper X s.y := by
    unfold Gradient.atPixel
    ring
  rw [texelAfter, along, g.value_center, step, sum]

/-- The texel coordinate that a textured fill at scale one reads for a pixel. -/
def Triangle.texelAt (t : Triangle) (coordinate : Vertex → Int) (X Y : Int) : Int :=
  wrap32 ((Gradient.ofTriangle t.sorted coordinate).atPixel t.sorted.a X Y / 0x80000)

namespace Triangle

theorem left_of_mem_halfSpans {width height k : Nat} {upper lower : Vertex} {left right : Edge} {s : Span}
    (mem : s ∈ halfSpans width height k upper lower left right) : 0 ≤ s.left ∧ s.left ≤ width := by
  obtain ⟨y, -, rfl⟩ := List.mem_map.1 (List.mem_filter.1 mem).1
  unfold rowSpan clamp
  dsimp only
  omega

/-- The runs of a triangle begin on the picture. -/
theorem left_of_mem_sortedSpans {width height k : Nat} {t : Triangle} {s : Span}
    (mem : s ∈ sortedSpans width height k t) : 0 ≤ s.left ∧ s.left ≤ width := by
  unfold sortedSpans at mem
  dsimp only at mem
  split at mem
  · cases mem
  · split at mem
    · exact (List.mem_append.1 mem).elim left_of_mem_halfSpans left_of_mem_halfSpans
    · exact (List.mem_append.1 mem).elim left_of_mem_halfSpans left_of_mem_halfSpans

end Triangle

namespace Canvas

theorem border_eq_of_le {c : Canvas} {x : Int} (inside : 0 ≤ x ∧ x ≤ c.width) : (c.border x : Int) = x := by
  unfold border clamp
  omega

/-- Painting spans sets the pixels that they hold. Where all runs of a row agree on a texel, it does not matter which of
them comes last. -/
theorem pixel?_foldl_paintTexels_of_texel {u v : Canvas → Span → CoordinateRun} {texture : Texture} {X Y x y : Int}
    {spans : List Span} {c : Canvas} (native : c.scale = 1)
    (read : ∀ d s, d.scale = 1 → s ∈ spans → s.y = Y → (u d s).texelAfter (X - d.border s.left) = x ∧
      (v d s).texelAfter (X - d.border s.left) = y) :
    (spans.foldl (fun c s => c.paintTexels s (u c s) (v c s) texture) c).pixel? X Y =
      if Screen.Contains 1 X Y ∧ ∃ s ∈ spans, s.Holds X Y then some (texture x y) else c.pixel? X Y := by
  rw [← native]
  refine pixel?_foldl spans c fun d same s mem => ⟨scale_paintTexels .., ?_⟩
  rw [paintTexels_eq_paintSpan]
  refine pixel?_paintSpan_of_color fun row => ?_
  obtain ⟨hu, hv⟩ := read d s (same.trans native) mem row
  rw [hu, hv]

/-- A textured fill gives each pixel that the triangle covers the texel at its center, and changes no other pixel. -/
theorem pixel?_fillAffineTriangle {c : Canvas} (native : c.scale = 1) (t : Triangle) (texture : Texture) (X Y : Int) :
    (c.fillAffineTriangle t texture).pixel? X Y =
      if Screen.Contains 1 X Y ∧ t.sorted.Covers 1 X Y then
        some (texture (t.texelAt (·.u) X Y) (t.texelAt (·.v) X Y))
      else c.pixel? X Y := by
  obtain ⟨ab, bc⟩ := Triangle.sorted_ordered t
  have held : (Screen.Contains 1 X Y ∧ ∃ s ∈ t.sorted.sortedSpans c.width c.height c.scale, s.Holds X Y) ↔
      Screen.Contains 1 X Y ∧ t.sorted.Covers 1 X Y := by
    rw [Triangle.holds_sortedSpans (Vertex.le_of_not_after ab) (Vertex.le_of_not_after bc), width, height, native]
    exact ⟨fun h => ⟨h.1, h.2.2⟩, fun h => ⟨h.1, h.1, h.2⟩⟩
  rw [fillAffineTriangle,
    pixel?_foldl_paintTexels_of_texel (x := t.texelAt (·.u) X Y) (y := t.texelAt (·.v) X Y) native]
  · simp only [held]
  · rintro d s same mem rfl
    have inside := Triangle.left_of_mem_sortedSpans mem
    have start : (d.border s.left : Int) = s.left := border_eq_of_le (by rwa [width, same, ← native])
    rw [same, start]
    exact ⟨CoordinateRun.texelAfter_along .., CoordinateRun.texelAfter_along ..⟩

theorem fillAffineTriangle?_native {c : Canvas} (native : c.scale = 1) (t : Triangle) (texture : Texture) :
    c.fillAffineTriangle? t texture = .ok (c.fillAffineTriangle t texture) :=
  fillAffineTriangle?_of_pos (native ▸ Nat.one_pos) t texture

end Canvas

namespace Triangle

variable {t : Triangle} {X Y u v : Int}

/-- A textured fill at scale one gives the pixel the texel at `(u, v)`, on every canvas and with every texture. -/
def Samples (t : Triangle) (X Y u v : Int) : Prop :=
  ∀ (c : Canvas) (texture : Texture), c.scale = 1 →
    ∃ d, c.fillAffineTriangle? t texture = .ok d ∧ d.pixel? X Y = some (texture u v)

theorem samples_iff : t.Samples X Y u v ↔ t.Paints 1 X Y ∧ u = t.texelAt (·.u) X Y ∧ v = t.texelAt (·.v) X Y := by
  rw [paints_iff]
  constructor
  · intro samples
    -- the texture that tells the texel from the others, and from a pixel of a blank canvas
    obtain ⟨d, filled, shows⟩ := samples (.blank 1) (fun x y => if x = u ∧ y = v then 1 else 0) rfl
    rw [Canvas.fillAffineTriangle?_native rfl] at filled
    obtain rfl := Except.ok.inj filled
    rw [Canvas.pixel?_fillAffineTriangle rfl] at shows
    by_cases covered : Screen.Contains 1 X Y ∧ t.sorted.Covers 1 X Y
    · rw [if_pos covered] at shows
      refine ⟨covered, ?_⟩
      by_contra other
      rw [if_neg fun same => other ⟨same.1.symm, same.2.symm⟩, if_pos ⟨rfl, rfl⟩] at shows
      cases shows
    · rw [if_neg covered, if_pos (⟨rfl, rfl⟩ : u = u ∧ v = v), Canvas.pixel?_blank] at shows
      split at shows <;> cases shows
  · rintro ⟨covered, rfl, rfl⟩ c texture native
    refine ⟨_, Canvas.fillAffineTriangle?_native native t texture, ?_⟩
    rw [Canvas.pixel?_fillAffineTriangle native, if_pos covered]

end Triangle

end Redraw

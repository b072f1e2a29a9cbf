import Redraw.Proofs.Canvas.Upscale
import Redraw.Proofs.Triangle.Coverage

/-!
# Fixed sprites

A fixed sprite shows, at each logical pixel that it reaches, its texel with the bits of its mask, and nothing where the texel
is zero. Each texel that shows fills the block of its pixel (`Canvas.pixel?_fillBlock`), so drawing a sprite sets the pixels
of the canvas whose logical pixel shows a texel (`Canvas.pixel?_drawFixedSprite`), and it looks alike at every scale
(`FixedSprite.drawn_in_blocks`).
-/

namespace Redraw

/-- A picture that a position lies on has a scale. -/
theorem Screen.scale_pos {k : Nat} {x y : Int} (inside : Screen.Contains k x y) : 0 < k := by
  obtain ⟨left, right, -⟩ := inside
  cases k with
  | zero => exact absurd (Int.lt_of_le_of_lt left right) (by decide)
  | succ k => exact Nat.succ_pos k

namespace Canvas

/-! ## Blocks -/

/-- Filling a block sets the output pixels of a logical pixel, if that lies on the screen, and no other pixel. -/
theorem pixel?_fillBlock (c : Canvas) (x y : Int) (v : UInt8) (X Y : Int) :
    (c.fillBlock x y v).pixel? X Y =
      if Screen.Contains c.scale X Y ∧ X / c.scale = x ∧ Y / c.scale = y then some v else c.pixel? X Y := by
  unfold fillBlock
  dsimp only
  split
  · have rows : (between 0 c.scale).foldl
        (fun d row => d.fillSpan (y * c.scale + row) (x * c.scale) ((x + 1) * c.scale) v) c =
          ((between 0 c.scale).map fun row => (⟨y * c.scale + row, x * c.scale, (x + 1) * c.scale⟩ : Span)).foldl
            (fun d s => d.fillSpan s.y s.left s.right v) c := by
      rw [List.foldl_map]
    rw [rows, pixel?_foldl_fillSpan]
    refine if_congr (and_congr_right fun inside => ?_) rfl rfl
    have pos := Screen.scale_pos inside
    simp only [List.mem_map, exists_exists_and_eq_and, mem_between, Span.Holds, ediv_eq_iff_block pos, Int.add_mul,
      Int.one_mul]
    constructor
    · rintro ⟨r, ⟨first, last⟩, here, columns⟩
      exact ⟨columns, by omega, by omega⟩
    · rintro ⟨columns, first, last⟩
      exact ⟨Y - y * c.scale, ⟨by omega, by omega⟩, by omega, columns⟩
  · -- a position of the picture lies in a block of the screen, so a block off the screen has no position
    rename_i out
    rw [if_neg]
    rintro ⟨inside, rfl, rfl⟩
    obtain ⟨left, right, top, bottom⟩ := block_contains (Screen.scale_pos inside) inside
    exact out ⟨left, by simpa using right, top, by simpa using bottom⟩

end Canvas

/-! ## Texels that show -/

namespace FixedSprite

/-- The column and the row are inside of the sprite. -/
def HasTexel (s : FixedSprite) (column row : Int) : Prop := 0 ≤ column ∧ column < s.width ∧ 0 ≤ row ∧ row < s.height

instance (s : FixedSprite) (column row : Int) : Decidable (s.HasTexel column row) :=
  inferInstanceAs (Decidable (0 ≤ column ∧ column < s.width ∧ 0 ≤ row ∧ row < s.height))

/-- The texel that the sprite has at a logical pixel. -/
def texelAt (s : FixedSprite) (view : View) (x y : Int) : UInt8 := s.texel view (x - s.x) (y - s.y)

/-- The sprite reaches a logical pixel, and its texel there is not transparent. -/
def Shows (s : FixedSprite) (view : View) (x y : Int) : Prop := s.HasTexel (x - s.x) (y - s.y) ∧ s.texelAt view x y ≠ 0

instance (s : FixedSprite) (view : View) (x y : Int) : Decidable (s.Shows view x y) :=
  inferInstanceAs (Decidable (s.HasTexel (x - s.x) (y - s.y) ∧ s.texelAt view x y ≠ 0))

/-- The color of a texel that shows. -/
def colorAt (s : FixedSprite) (view : View) (x y : Int) : UInt8 := s.texelAt view x y ||| s.mask

theorem mem_visiblePositions {s : FixedSprite} {column row : Int} :
    (column, row) ∈ s.visiblePositions ↔ s.HasTexel column row ∧ Screen.Contains 1 (s.x + column) (s.y + row) := by
  simp only [visiblePositions, visible, List.mem_flatMap, List.mem_map, mem_between, Prod.mk.injEq, HasTexel,
    Screen.Contains, Nat.mul_one]
  constructor
  · rintro ⟨r, hr, c, hc, rfl, rfl⟩
    omega
  · intro h
    exact ⟨row, by omega, column, by omega, rfl, rfl⟩

end FixedSprite

namespace Canvas

/-! ## Drawing -/

theorem pixel?_drawTexel (c : Canvas) (s : FixedSprite) (view : View) (column row X Y : Int) :
    (c.drawTexel s view column row).pixel? X Y =
      if Screen.Contains c.scale X Y ∧ (column = X / c.scale - s.x ∧ row = Y / c.scale - s.y) ∧
          s.texel view column row ≠ 0 then
        some (s.texel view column row ||| s.mask)
      else c.pixel? X Y := by
  unfold drawTexel
  dsimp only
  split
  · rename_i transparent
    rw [if_neg fun all => all.2.2 transparent]
  · rename_i shown
    rw [pixel?_fillBlock]
    refine if_congr (and_congr_right fun _ => ?_) rfl rfl
    rw [and_iff_left shown]
    exact and_congr (by omega) (by omega)

/-- Drawing a sprite gives the blocks of the logical pixels at which it shows a texel the color of that, and changes no
other pixel. -/
theorem pixel?_drawFixedSprite (c : Canvas) (s : FixedSprite) (view : View) (X Y : Int) :
    (c.drawFixedSprite s view).pixel? X Y =
      if Screen.Contains c.scale X Y ∧ s.Shows view (X / c.scale) (Y / c.scale) then
        some (s.colorAt view (X / c.scale) (Y / c.scale))
      else c.pixel? X Y := by
  have drawn : (c.drawFixedSprite s view).pixel? X Y =
      if Screen.Contains c.scale X Y ∧ ∃ p ∈ s.visiblePositions,
          (p.1 = X / c.scale - s.x ∧ p.2 = Y / c.scale - s.y) ∧ s.texel view p.1 p.2 ≠ 0 then
        some (s.colorAt view (X / c.scale) (Y / c.scale))
      else c.pixel? X Y := by
    refine pixel?_foldl s.visiblePositions c fun d same p _ => ⟨d.scale_drawTexel .., ?_⟩
    rw [pixel?_drawTexel, same]
    refine ite_congr rfl (fun marked => ?_) fun _ => rfl
    obtain ⟨-, ⟨column, row⟩, -⟩ := marked
    rw [FixedSprite.colorAt, FixedSprite.texelAt, column, row]
  rw [drawn]
  refine if_congr (and_congr_right fun inside => ?_) rfl rfl
  have block := block_contains (Screen.scale_pos inside) inside
  generalize X / (c.scale : Int) = x at block ⊢
  generalize Y / (c.scale : Int) = y at block ⊢
  constructor
  · rintro ⟨⟨column, row⟩, mem, ⟨rfl, rfl⟩, shown⟩
    exact ⟨(FixedSprite.mem_visiblePositions.1 mem).1, shown⟩
  · rintro ⟨has, shown⟩
    have column : s.x + (x - s.x) = x := by omega
    have row : s.y + (y - s.y) = y := by omega
    exact ⟨(x - s.x, y - s.y), FixedSprite.mem_visiblePositions.2 ⟨has, by rwa [column, row]⟩, ⟨rfl, rfl⟩, shown⟩

theorem Upscales.drawFixedSprite {large small : Canvas} (h : Upscales large small) (s : FixedSprite) (view : View) :
    Upscales (large.drawFixedSprite s view) (small.drawFixedSprite s view) := by
  refine h.repaint (s.colorAt view) (s.Shows view) (large.scale_drawFixedSprite s view) (small.scale_drawFixedSprite s view)
    (large.pixel?_drawFixedSprite s view) fun x y => ?_
  rw [pixel?_drawFixedSprite, h.native, Int.natCast_one, Int.ediv_one, Int.ediv_one]

end Canvas

/-- **Fixed sprites scale.** Drawing a sprite on a picture and on its enlargement gives a picture and its enlargement. At
native size it gives each pixel at which it has a texel that is not zero this texel with the bits of the mask, and it leaves
all other pixels as they are. -/
theorem FixedSprite.drawn_in_blocks (s : FixedSprite) (view : View) :
    (∀ large small : Canvas, Canvas.Upscales large small →
      Canvas.Upscales (large.drawFixedSprite s view) (small.drawFixedSprite s view)) ∧
      ∀ c : Canvas, c.scale = 1 → ∀ x y : Int,
        (c.drawFixedSprite s view).pixel? x y =
          if Screen.Contains 1 x y ∧ s.HasTexel (x - s.x) (y - s.y) ∧ s.texel view (x - s.x) (y - s.y) ≠ 0 then
            some (s.texel view (x - s.x) (y - s.y) ||| s.mask)
          else c.pixel? x y := by
  refine ⟨fun large small h => h.drawFixedSprite s view, fun c native x y => ?_⟩
  rw [Canvas.pixel?_drawFixedSprite, native, Int.natCast_one, Int.ediv_one, Int.ediv_one]
  rfl

/-- A mirrored sprite that reaches past the left and the lower side of the screen, with a transparent texel. -/
theorem FixedSprite.drawn_in_blocks_corner :
    let s : FixedSprite := ⟨-2, 158, 4, 3, true, 0x08000000, .nibbles, 0x30⟩
    let view := View.ofAddress (.withCartridge ⟨#[0x12, 0x34, 0x05, 0x67]⟩ true) 0x08000000
    Canvas.Upscales (.blank 3) (.blank 1) ∧ (Canvas.blank 1).scale = 1 ∧
      Canvas.Upscales ((Canvas.blank 3).drawFixedSprite s view) ((Canvas.blank 1).drawFixedSprite s view) ∧
      ((Canvas.blank 1).drawFixedSprite s view).pixel? 1 158 = some 0x31 ∧
      ((Canvas.blank 1).drawFixedSprite s view).pixel? 1 159 = some 0 := by
  intro s view
  have blank : Canvas.Upscales (.blank 3) (.blank 1) := Canvas.upscales_blank (by decide)
  obtain ⟨keeps, shows⟩ := drawn_in_blocks s view
  refine ⟨blank, rfl, keeps _ _ blank, ?_, ?_⟩
  · rw [shows _ rfl, if_pos (by decide)]
    decide
  · rw [shows _ rfl, if_neg (by decide), Canvas.pixel?_blank]
    decide

end Redraw

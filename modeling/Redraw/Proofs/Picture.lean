import Mathlib.Data.List.Induction
import Redraw.Proofs.Frames

/-!
# The pixels of a committed picture

A color picture is known by the four bytes of each of its pixels (`Rgba.pixel?`). A canvas that is resolved through a
palette shows the palette color of each index, opaque, and nothing for index zero (`Rgba.pixel?_resolve`). An outline
changes the pixels on its sides, and of several outlines through one pixel the last one shows (`Outline.pixel?_drawAll`).
-/

namespace Redraw

/-- The four bytes of a pixel: red, green, blue and alpha. -/
abbrev Pixel := UInt8 × UInt8 × UInt8 × UInt8

def Color.pixel (c : Color) : Pixel := (c.red, c.green, c.blue, 0xFF)

/-- What an index shows through a palette. -/
def Palette.pixel (palette : Palette) (entry : UInt8) : Pixel :=
  if entry = 0 then (0, 0, 0, 0) else (palette.color entry).pixel

namespace Rgba

/-- The four bytes of pixel `i`, counted row by row. -/
def quad? (b : ByteArray) (i : Nat) : Option Pixel := do
  let red ← Bytes.at? b (4 * i)
  let green ← Bytes.at? b (4 * i + 1)
  let blue ← Bytes.at? b (4 * i + 2)
  let alpha ← Bytes.at? b (4 * i + 3)
  return (red, green, blue, alpha)

theorem quad?_congr {b d : ByteArray} {i j : Nat}
    (same : ∀ o < 4, Bytes.at? b (4 * i + o) = Bytes.at? d (4 * j + o)) : quad? b i = quad? d j := by
  have first := same 0 (by omega)
  simp only [Nat.add_zero] at first
  rw [quad?, quad?, first, same 1 (by omega), same 2 (by omega), same 3 (by omega)]

variable {p : Rgba} {x y : Int}

theorem pixel?_of_contains (h : Screen.Contains p.scale x y) :
    p.pixel? x y = quad? p.bytes (y.toNat * (Screen.width * p.scale) + x.toNat) := by
  rw [pixel?, Screen.index?_eq_some h]
  rfl

theorem pixel?_eq_none (h : ¬Screen.Contains p.scale x y) : p.pixel? x y = none := by
  rw [pixel?, Screen.index?_eq_none h]
  rfl

/-- The four bytes of a pixel lie in the buffer. -/
theorem bytes_of_contains (h : Screen.Contains p.scale x y) :
    0 ≤ y * (Screen.width * p.scale : Nat) + x ∧ 4 * (y * (Screen.width * p.scale : Nat) + x) + 4 ≤ p.bytes.size := by
  have lt := Screen.index?_lt (Screen.index?_eq_some h)
  obtain ⟨left, -, top, -⟩ := h
  obtain ⟨m, rfl⟩ := Int.eq_ofNat_of_zero_le left
  obtain ⟨n, rfl⟩ := Int.eq_ofNat_of_zero_le top
  have size := p.size_eq
  simp only [Int.toNat_natCast] at lt
  rw [← Int.natCast_mul, ← Int.natCast_add]
  omega

/-! ## Single pixels -/

theorem quad?_put {b : ByteArray} {i : Nat} (fits : 4 * i + 3 < b.size) (j : Nat) (c : Color) :
    quad? (Bytes.put (Bytes.put (Bytes.put (Bytes.put b (4 * i) c.red) (4 * i + 1) c.green) (4 * i + 2) c.blue)
      (4 * i + 3) 0xFF) j = if i = j then some c.pixel else quad? b j := by
  by_cases same : i = j
  · subst same
    have b₀ : 4 * i < b.size := by omega
    have b₁ : 4 * i + 1 < b.size := by omega
    have b₂ : 4 * i + 2 < b.size := by omega
    simp [quad?, Bytes.at?_put, b₀, b₁, b₂, fits, Color.pixel]
  · rw [if_neg same]
    refine quad?_congr fun o ho => ?_
    rw [Bytes.at?_put, if_neg (by omega), Bytes.at?_put, if_neg (by omega), Bytes.at?_put, if_neg (by omega),
      Bytes.at?_put, if_neg (by omega)]

theorem pixel?_plot (p : Rgba) (x y : Int) (color : Color) (x' y' : Int) :
    (p.plot x y color).pixel? x' y' =
      if x' = x ∧ y' = y ∧ Screen.Contains p.scale x y then some color.pixel else p.pixel? x' y' := by
  by_cases h : Screen.Contains p.scale x y
  · by_cases h' : Screen.Contains p.scale x' y'
    · have fits := Screen.index?_lt (Screen.index?_eq_some h)
      rw [pixel?_of_contains h', pixel?_of_contains (by simpa using h')]
      simp only [plot, Screen.index?_eq_some h]
      rw [quad?_put (by rw [p.size_eq]; omega)]
      by_cases e : x' = x ∧ y' = y
      · obtain ⟨rfl, rfl⟩ := e
        rw [if_pos rfl, if_pos ⟨rfl, rfl, h⟩]
      · have apart : ¬y.toNat * (Screen.width * p.scale) + x.toNat = y'.toNat * (Screen.width * p.scale) + x'.toNat :=
          fun same => e ((Screen.index_injective h h' same).imp Eq.symm Eq.symm)
        rw [if_neg apart, if_neg fun all => e ⟨all.1, all.2.1⟩]
    · rw [pixel?_eq_none h', pixel?_eq_none (by simpa using h'), if_neg]
      rintro ⟨rfl, rfl, -⟩
      exact h' h
  · rw [if_neg fun all => h all.2.2, plot, Screen.index?_eq_none h]

/-! ## Resolved canvases -/

theorem quad?_push {b : ByteArray} {n : Nat} (size : b.size = 4 * n) (q : Pixel) (j : Nat) :
    quad? ((((b.push q.1).push q.2.1).push q.2.2.1).push q.2.2.2) j = if j = n then some q else quad? b j := by
  by_cases last : j = n
  · subst last
    have apart (o : Nat) : 4 * j ≠ 4 * j + o + 1 := by omega
    simp [quad?, Bytes.at?_push, size, apart]
  · rw [if_neg last]
    refine quad?_congr fun o ho => ?_
    simp only [Bytes.at?_push, ByteArray.size_push, size]
    rw [if_neg (by omega), if_neg (by omega), if_neg (by omega), if_neg (by omega)]

theorem appendEntry_eq (palette : Palette) (b : ByteArray) (entry : UInt8) :
    let q := palette.pixel entry
    appendEntry palette b entry = (((b.push q.1).push q.2.1).push q.2.2.1).push q.2.2.2 := by
  unfold appendEntry Palette.pixel
  split <;> rfl

theorem quad?_appendEntries (palette : Palette) (indices : ByteArray) (i k : Nat) {b : ByteArray} {n : Nat}
    (size : b.size = 4 * n) (j : Nat) :
    quad? (appendEntries palette indices i b k) j =
      if n ≤ j ∧ j < n + k then some (palette.pixel ((Bytes.at? indices (i + (j - n))).getD 0)) else quad? b j := by
  induction k generalizing i b n with
  | zero =>
    rw [if_neg (by omega)]
    rfl
  | succ k ih =>
    have longer : (appendEntry palette b ((Bytes.at? indices i).getD 0)).size = 4 * (n + 1) := by
      rw [size_appendEntry, size]
      omega
    rw [appendEntries, ih (i + 1) longer, appendEntry_eq, quad?_push size]
    by_cases here : j = n
    · subst here
      rw [if_neg (by omega), if_pos rfl, if_pos (by omega), Nat.sub_self]
      rfl
    · rw [if_neg here]
      by_cases later : n + 1 ≤ j ∧ j < n + 1 + k
      · rw [if_pos later, if_pos (by omega), show i + 1 + (j - (n + 1)) = i + (j - n) by omega]
      · rw [if_neg later, if_neg (by omega)]

/-- A resolved canvas shows each of its indices through the palette. -/
theorem pixel?_resolve (palette : Palette) (c : Canvas) (x y : Int) :
    (resolve palette c).pixel? x y = (c.pixel? x y).map palette.pixel := by
  by_cases h : Screen.Contains c.scale x y
  · have lt := Canvas.index_lt_size h
    rw [pixel?_of_contains h, Canvas.pixel?_of_contains h]
    have entries := quad?_appendEntries palette c.pixels 0 c.pixels.size
      (b := ByteArray.emptyWithCapacity (4 * c.pixels.size)) (n := 0) rfl (y.toNat * c.width + x.toNat)
    rw [if_pos (by omega), Nat.sub_zero, Nat.zero_add] at entries
    rw [Bytes.at?, dif_pos lt] at entries ⊢
    exact entries
  · rw [pixel?_eq_none h, Canvas.pixel?_eq_none h]
    rfl

end Rgba

/-! ## Outlines -/

namespace Outline

/-- The sides of the outline at a scale run through the pixel `(x, y)`. -/
def Meets (scale : Nat) (x y : Int) (o : Outline) : Prop := (x, y) ∈ o.points scale

instance (scale : Nat) (x y : Int) : DecidablePred (Meets scale x y) :=
  fun o => inferInstanceAs (Decidable ((x, y) ∈ o.points scale))

theorem Sides.meetScreen_iff {s : Sides} {scale : Nat} :
    s.meetScreen scale = true ↔
      0 ≤ s.right ∧ s.left < (Screen.width * scale : Nat) ∧ 0 ≤ s.bottom ∧ s.top < (Screen.height * scale : Nat) := by
  simp [meetScreen, and_assoc]

/-- At scale zero no rectangle meets the screen. -/
theorem pos_of_meetScreen {o : Outline} {scale : Nat} (meets : (o.sides scale).meetScreen scale = true) : 0 < scale := by
  obtain ⟨-, left, -⟩ := Sides.meetScreen_iff.1 meets
  rcases Nat.eq_zero_or_pos scale with rfl | pos
  · simp [sides] at left
  · exact pos

/-- The sides of an outline lie on the screen. -/
theorem Meets.contains {o : Outline} {scale : Nat} {x y : Int} (meets : o.Meets scale x y) :
    Screen.Contains scale x y := by
  unfold Meets points at meets
  dsimp only at meets
  split at meets
  · rename_i shown
    obtain ⟨right, left, bottom, top⟩ := Sides.meetScreen_iff.1 shown.2.2
    have pos := pos_of_meetScreen shown.2.2
    have columns : 0 < Screen.width * scale := Nat.mul_pos (by decide) pos
    have rows : 0 < Screen.height * scale := Nat.mul_pos (by decide) pos
    unfold Screen.Contains
    simp only [Sides.points, Sides.clip, List.mem_append, List.mem_flatMap, mem_between, List.mem_cons,
      List.not_mem_nil, or_false, Prod.mk.injEq] at meets
    rcases meets with ⟨x, range, ⟨rfl, rfl⟩ | ⟨rfl, rfl⟩⟩ | ⟨y, range, ⟨rfl, rfl⟩ | ⟨rfl, rfl⟩⟩ <;> omega
  · cases meets

theorem pixel?_foldl_plot (points : List (Int × Int)) (color : Color) (p : Rgba) {x y : Int}
    (h : Screen.Contains p.scale x y) :
    (points.foldl (fun p point => p.plot point.1 point.2 color) p).pixel? x y =
      if (x, y) ∈ points then some color.pixel else p.pixel? x y := by
  induction points using List.reverseRecOn with
  | nil => rfl
  | append_singleton points point ih =>
    obtain ⟨a, b⟩ := point
    have scale := Rgba.foldl_scale (f := fun p (point : Int × Int) => p.plot point.1 point.2 color)
      (fun p _ => p.scale_plot ..) points p
    rw [List.foldl_append, List.foldl_cons, List.foldl_nil, Rgba.pixel?_plot, ih, scale]
    by_cases last : x = a ∧ y = b
    · obtain ⟨rfl, rfl⟩ := last
      rw [if_pos ⟨rfl, rfl, h⟩, if_pos (List.mem_append_right _ (List.mem_singleton_self _))]
    · rw [if_neg fun all => last ⟨all.1, all.2.1⟩]
      simp only [List.mem_append, List.mem_singleton, Prod.mk.injEq, last, or_false]

theorem pixel?_draw (p : Rgba) (o : Outline) {x y : Int} (h : Screen.Contains p.scale x y) :
    (draw p o).pixel? x y = if o.Meets p.scale x y then some o.color.pixel else p.pixel? x y :=
  pixel?_foldl_plot (o.points p.scale) o.color p h

/-- Of the outlines through a pixel the last one in the queue shows. -/
theorem pixel?_drawAll (queue : List Outline) (p : Rgba) {x y : Int} (h : Screen.Contains p.scale x y) :
    (drawAll queue p).pixel? x y =
      match queue.reverse.find? (Meets p.scale x y) with
      | some o => some o.color.pixel
      | none => p.pixel? x y := by
  induction queue using List.reverseRecOn with
  | nil => rfl
  | append_singleton queue o ih =>
    have scale := Rgba.scale_drawAll queue p
    have split : drawAll (queue ++ [o]) p = draw (drawAll queue p) o := List.foldl_append
    rw [split, pixel?_draw _ _ (by rwa [scale]), ih, scale, List.reverse_append]
    change _ = match List.find? _ (o :: queue.reverse) with
      | some o => some o.color.pixel
      | none => p.pixel? x y
    rw [List.find?_cons]
    by_cases through : Meets p.scale x y o
    · rw [if_pos through, decide_eq_true through]
    · rw [if_neg through, decide_eq_false through]

end Outline

end Redraw

import Redraw.Canvas

/-!
# The pixels of a canvas

What every drawing operation does to the view `pixel?`. A canvas has a pixel at the positions that lie on it and
at no others; setting a pixel, filling and painting a span change the pixels that they name, as far as they lie on
the canvas, and no others. Two canvases of one scale with the same pixels are the same.
-/

namespace Redraw.Canvas

/-! ## Positions -/

theorem pixel?_of_contains {c : Canvas} {x y : Int} (h : Screen.Contains c.scale x y) :
    c.pixel? x y = Bytes.at? c.pixels (y.toNat * c.width + x.toNat) := by
  rw [pixel?, Screen.index?_eq_some h]
  rfl

theorem pixel?_eq_none {c : Canvas} {x y : Int} (h : ¬Screen.Contains c.scale x y) : c.pixel? x y = none := by
  rw [pixel?, Screen.index?_eq_none h]
  rfl

theorem index_lt_size {c : Canvas} {x y : Int} (h : Screen.Contains c.scale x y) :
    y.toNat * c.width + x.toNat < c.pixels.size := by
  rw [c.size_eq]
  exact Screen.index?_lt (Screen.index?_eq_some h)

/-- The output rows before `row` lie in the buffer. -/
theorem row_mul_le_size {c : Canvas} {row : Nat} (inside : row ≤ c.height) : row * c.width ≤ c.pixels.size :=
  calc row * c.width ≤ c.height * c.width := Nat.mul_le_mul_right _ inside
    _ = c.pixels.size := by
      rw [c.size_eq, Screen.area_eq, height, width]
      ac_rfl

/-- The output rows of a row of blocks lie on the canvas. -/
theorem block_rows_le_height {c : Canvas} {row : Nat} (inside : row < Screen.height) :
    row * c.scale + c.scale ≤ c.height := by
  rw [← Nat.succ_mul]
  exact Nat.mul_le_mul_right _ inside

/-- A position has a pixel exactly when it lies on the canvas. -/
theorem isSome_pixel? (c : Canvas) (x y : Int) : (c.pixel? x y).isSome ↔ Screen.Contains c.scale x y := by
  by_cases h : Screen.Contains c.scale x y
  · simp [pixel?_of_contains h, Bytes.at?, h, index_lt_size h]
  · simp [pixel?_eq_none h, h]

/-! ## Single pixels -/

@[simp]
theorem scale_setPixel (c : Canvas) (x y : Int) (v : UInt8) : (c.setPixel x y v).scale = c.scale := by
  unfold setPixel
  split <;> rfl

theorem pixel?_setPixel (c : Canvas) (x y : Int) (v : UInt8) (x' y' : Int) :
    (c.setPixel x y v).pixel? x' y' =
      if x' = x ∧ y' = y ∧ Screen.Contains c.scale x y then some v else c.pixel? x' y' := by
  by_cases h : Screen.Contains c.scale x y
  · by_cases h' : Screen.Contains c.scale x' y'
    · have lt := index_lt_size h
      rw [pixel?_of_contains h', pixel?_of_contains (by simpa using h')]
      simp only [setPixel, Screen.index?_eq_some h, Bytes.at?_put, width]
      by_cases e : x' = x ∧ y' = y
      · obtain ⟨rfl, rfl⟩ := e
        rw [if_pos ⟨rfl, lt⟩, if_pos ⟨rfl, rfl, h⟩]
      · have : ¬y.toNat * (Screen.width * c.scale) + x.toNat = y'.toNat * (Screen.width * c.scale) + x'.toNat :=
          fun same => e ((Screen.index_injective h h' same).imp Eq.symm Eq.symm)
        rw [if_neg (fun both => this both.1), if_neg (fun all => e ⟨all.1, all.2.1⟩)]
    · rw [pixel?_eq_none h', pixel?_eq_none (by simpa using h'), if_neg]
      rintro ⟨rfl, rfl, -⟩
      exact h' h
  · rw [if_neg (fun all => h all.2.2), setPixel, Screen.index?_eq_none h]

/-! ## Spans -/

@[simp]
theorem scale_fillSpan (c : Canvas) (y left right : Int) (v : UInt8) :
    (c.fillSpan y left right v).scale = c.scale := by
  unfold fillSpan
  split <;> rfl

@[simp]
theorem scale_paintSpan (c : Canvas) (y left right : Int) (color : Int → UInt8) :
    (c.paintSpan y left right color).scale = c.scale := by
  unfold paintSpan
  split <;> rfl

theorem border_le_width (c : Canvas) (x : Int) : c.border x ≤ c.width := by
  unfold border clamp
  omega

/-- The columns between two borders are those between the positions that lie on the canvas. -/
theorem between_borders (c : Canvas) (left right x : Int) :
    (c.border left : Int) ≤ x ∧ x < c.border right ↔ left ≤ x ∧ x < right ∧ 0 ≤ x ∧ x < c.width := by
  unfold border clamp
  omega

theorem span?_eq_some_iff {c : Canvas} {y left right : Int} {s : Nat × Nat} :
    c.span? y left right = some s ↔
      0 ≤ y ∧ y < c.height ∧ c.border left < c.border right ∧ s = (c.border left, c.border right) := by
  simp only [span?, Option.ite_none_right_eq_some, Option.some.injEq, and_assoc, @eq_comm _ _ s]

theorem not_mem_of_span?_eq_none {c : Canvas} {y left right : Int} (h : c.span? y left right = none) (x : Int) :
    ¬(left ≤ x ∧ x < right ∧ Screen.Contains c.scale x y) := by
  rintro ⟨hl, hr, hx, hx', hy, hy'⟩
  have cols := (between_borders c left right x).2 ⟨hl, hr, hx, hx'⟩
  rw [span?, if_pos ⟨hy, hy', by omega⟩] at h
  cases h

/-- The cells of a span in a row-by-row layout are the columns of the span in its row. -/
theorem cell_mem_span {width first last x' y y' : Nat} (fl : last ≤ width) (hx : x' < width) :
    (y * width + first ≤ y' * width + x' ∧ y' * width + x' < y * width + last ↔
      y' = y ∧ first ≤ x' ∧ x' < last) := by
  constructor
  · rintro ⟨lo, hi⟩
    have : y' = y := by
      rcases Nat.lt_trichotomy y' y with less | same | more
      · have := Nat.mul_le_mul_right width (show y' + 1 ≤ y from less)
        rw [Nat.succ_mul] at this
        omega
      · exact same
      · have := Nat.mul_le_mul_right width (show y + 1 ≤ y' from more)
        rw [Nat.succ_mul] at this
        omega
    subst this
    omega
  · rintro ⟨rfl, lo, hi⟩
    omega

/-- Painting a span sets the pixels of its columns that lie on the canvas, and no other pixel. -/
theorem pixel?_paintSpan (c : Canvas) (y left right : Int) (color : Int → UInt8) (x' y' : Int) :
    (c.paintSpan y left right color).pixel? x' y' =
      if y' = y ∧ left ≤ x' ∧ x' < right ∧ Screen.Contains c.scale x' y' then some (color x')
      else c.pixel? x' y' := by
  by_cases h' : Screen.Contains c.scale x' y'
  · rw [pixel?_of_contains h', pixel?_of_contains (by simpa using h')]
    have lt := index_lt_size h'
    unfold paintSpan
    split
    · rename_i first last span
      obtain ⟨hy, hy', fl, e⟩ := span?_eq_some_iff.1 span
      obtain ⟨rfl, rfl⟩ := Prod.mk.inj e
      have cols := between_borders c left right x'
      obtain ⟨hx, hx', ky, ky'⟩ := h'
      have cell := @cell_mem_span c.width (c.border left) (c.border right) x'.toNat y.toNat y'.toNat
        (border_le_width c right) (by unfold width; omega)
      have stop : y.toNat * c.width + c.border left + (c.border right - c.border left) =
        y.toNat * c.width + c.border right := by omega
      change Bytes.at? (Bytes.paint c.pixels (y.toNat * c.width + c.border left) (fun x => color x) (c.border left)
        (c.border right - c.border left)) (y'.toNat * c.width + x'.toNat) = _
      rw [Bytes.at?_paint, stop]
      by_cases inside : y' = y ∧ left ≤ x' ∧ x' < right
      · obtain ⟨rfl, hl, hr⟩ := inside
        have := cols.2 ⟨hl, hr, hx, hx'⟩
        have shift : ((c.border left + (y'.toNat * c.width + x'.toNat
          - (y'.toNat * c.width + c.border left)) : Nat) : Int) = x' := by omega
        rw [if_pos (by omega), if_pos ⟨rfl, hl, hr, hx, hx', ky, ky'⟩]
        simp only [shift]
      · rw [if_neg, if_neg (fun all => inside ⟨all.1, all.2.1, all.2.2.1⟩)]
        rintro ⟨lo, hi, -⟩
        have := cell.1 ⟨lo, hi⟩
        omega
    · rename_i span
      rw [if_neg]
      rintro ⟨rfl, all⟩
      exact not_mem_of_span?_eq_none span x' all
  · rw [pixel?_eq_none h', pixel?_eq_none (by simpa using h'), if_neg (fun all => h' all.2.2.2)]

theorem fillSpan_eq_paintSpan (c : Canvas) (y left right : Int) (v : UInt8) :
    c.fillSpan y left right v = c.paintSpan y left right fun _ => v := by
  unfold fillSpan paintSpan
  split
  · rename_i first _ _
    simp only [Bytes.fill_eq_paint _ _ _ _ first]
  · rfl

/-- Filling a span sets the pixels of its columns that lie on the canvas, and no other pixel. -/
theorem pixel?_fillSpan (c : Canvas) (y left right : Int) (v : UInt8) (x' y' : Int) :
    (c.fillSpan y left right v).pixel? x' y' =
      if y' = y ∧ left ≤ x' ∧ x' < right ∧ Screen.Contains c.scale x' y' then some v else c.pixel? x' y' := by
  rw [fillSpan_eq_paintSpan, pixel?_paintSpan]

/-! ## Drawings in steps -/

/-- A drawing in steps that agree on the color of a pixel gives it that color if one of the steps marks it. -/
theorem pixel?_foldl {α : Type} {f : Canvas → α → Canvas} {marks : α → Prop} [DecidablePred marks] {x y : Int} {v : UInt8}
    (as : List α) (c : Canvas)
    (step : ∀ d, d.scale = c.scale → ∀ a ∈ as, (f d a).scale = d.scale ∧
      (f d a).pixel? x y = if Screen.Contains d.scale x y ∧ marks a then some v else d.pixel? x y) :
    (as.foldl f c).pixel? x y = if Screen.Contains c.scale x y ∧ ∃ a ∈ as, marks a then some v else c.pixel? x y := by
  induction as generalizing c with
  | nil => simp
  | cons a as ih =>
    obtain ⟨scale, pixel⟩ := step c rfl a List.mem_cons_self
    rw [List.foldl_cons, ih (f c a) fun d same b mem => step d (same.trans scale) b (List.mem_cons_of_mem a mem), scale,
      pixel]
    simp only [List.mem_cons, or_and_right, exists_or, exists_eq_left]
    by_cases inside : Screen.Contains c.scale x y
    · by_cases later : ∃ b ∈ as, marks b
      · simp [inside, later]
      · -- no later step marks the pixel, so this one decides
        simp [inside, later]
    · simp [inside]

/-! ## Whole canvases -/

theorem pixel?_blank (scale : Nat) (x y : Int) :
    (blank scale).pixel? x y = if Screen.Contains scale x y then some 0 else none := by
  by_cases h : Screen.Contains scale x y
  · rw [pixel?_of_contains h, if_pos h]
    exact (Bytes.at?_zeros ..).trans (if_pos (Screen.index?_lt (Screen.index?_eq_some h)))
  · rw [pixel?_eq_none h, if_neg h]

theorem pixel?_clear (c : Canvas) (x y : Int) :
    c.clear.pixel? x y = if Screen.Contains c.scale x y then some 0 else none := by
  by_cases h : Screen.Contains c.scale x y
  · have lt := index_lt_size h
    rw [pixel?_of_contains (c := c.clear) h, if_pos h]
    exact (Bytes.at?_fill ..).trans (if_pos ⟨Nat.zero_le _, (Nat.zero_add c.pixels.size).symm ▸ lt, lt⟩)
  · rw [pixel?_eq_none (c := c.clear) h, if_neg h]

/-- A canvas is known by its scale and its pixels. -/
theorem ext_pixel? {c d : Canvas} (scale : c.scale = d.scale) (pixels : ∀ x y, c.pixel? x y = d.pixel? x y) :
    c = d := by
  obtain ⟨k, p, hp⟩ := c
  obtain ⟨k', q, hq⟩ := d
  cases scale
  suffices p = q by cases this; rfl
  apply ByteArray.ext_getElem (hp.trans hq.symm)
  intro i hi hi'
  have pos : 0 < Screen.width * k := by
    rcases Nat.eq_zero_or_pos k with rfl | pos
    · simp only [hp, Nat.mul_zero] at hi
      omega
    · exact Nat.mul_pos (by decide) pos
  have row : i / (Screen.width * k) < Screen.height * k := by
    rw [Nat.div_lt_iff_lt_mul pos, show Screen.height * k * (Screen.width * k) = Screen.area * k * k by
      rw [Screen.area_eq]; ac_rfl]
    omega
  have column := Nat.mod_lt i pos
  have position := Nat.div_add_mod i (Screen.width * k)
  generalize i / (Screen.width * k) = y at row position
  generalize i % (Screen.width * k) = x at column position
  have inside : Screen.Contains k x y := ⟨by omega, by omega, by omega, by omega⟩
  have same := pixels x y
  rw [pixel?_of_contains inside, pixel?_of_contains inside] at same
  simp only [width, Int.toNat_natCast, Nat.mul_comm y, position, Bytes.at?] at same
  simpa [hi, hi'] using same

end Redraw.Canvas

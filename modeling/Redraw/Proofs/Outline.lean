import Mathlib.Tactic.MkIffOfInductiveProp
import Redraw.Proofs.Picture

/-!
# Outlines on a picture

A rectangle of a size that meets the screen is outlined along its sides, each moved to the border of the screen where it lies
beyond (`Outline.meets_iff`). Every point that is written lies in the buffer of the picture, and of several outlines through a
pixel the last one shows (`Outline.drawAll_shows_last`).
-/

namespace Redraw.Outline

/-- The sides, with those beyond the border of the screen moved to it. -/
def Sides.clamped (s : Sides) (k : Nat) : Sides where
  left := clamp s.left 0 ((Screen.width * k : Nat) - 1)
  top := clamp s.top 0 ((Screen.height * k : Nat) - 1)
  right := clamp s.right 0 ((Screen.width * k : Nat) - 1)
  bottom := clamp s.bottom 0 ((Screen.height * k : Nat) - 1)

/-- The pixel lies between the sides, or on one of them. -/
def Sides.Encloses (s : Sides) (x y : Int) : Prop := s.left ≤ x ∧ x ≤ s.right ∧ s.top ≤ y ∧ y ≤ s.bottom

/-- One of the sides runs through the column or the row of the pixel. -/
def Sides.Aligns (s : Sides) (x y : Int) : Prop := x = s.left ∨ x = s.right ∨ y = s.top ∨ y = s.bottom

/-- The outline of a rectangle on a picture runs through a pixel. -/
@[mk_iff]
structure RunsThrough (k : Nat) (x y : Int) (o : Outline) : Prop where
  width : 0 ≤ o.width
  height : 0 ≤ o.height
  meets : (o.sides k).meetScreen k = true
  encloses : ((o.sides k).clamped k).Encloses x y
  aligns : ((o.sides k).clamped k).Aligns x y

instance (s : Sides) (x y : Int) : Decidable (s.Encloses x y) :=
  inferInstanceAs (Decidable (s.left ≤ x ∧ x ≤ s.right ∧ s.top ≤ y ∧ y ≤ s.bottom))

instance (s : Sides) (x y : Int) : Decidable (s.Aligns x y) :=
  inferInstanceAs (Decidable (x = s.left ∨ x = s.right ∨ y = s.top ∨ y = s.bottom))

instance (k : Nat) (x y : Int) : DecidablePred (RunsThrough k x y) := fun _ => decidable_of_iff _ (runsThrough_iff ..).symm

variable {o : Outline} {k : Nat} {x y : Int}

/-- The points on the sides of a rectangle are those between them that one of them runs through. -/
theorem Sides.mem_points {s : Sides} (columns : s.left ≤ s.right) (rows : s.top ≤ s.bottom) :
    (x, y) ∈ s.points ↔ s.Encloses x y ∧ s.Aligns x y := by
  simp only [points, Encloses, Aligns, List.mem_append, List.mem_flatMap, mem_between, List.mem_cons, List.not_mem_nil,
    or_false, Prod.mk.injEq]
  constructor
  · rintro (⟨x, range, ⟨rfl, rfl⟩ | ⟨rfl, rfl⟩⟩ | ⟨y, range, ⟨rfl, rfl⟩ | ⟨rfl, rfl⟩⟩) <;> omega
  · rintro ⟨⟨left, right, top, bottom⟩, rfl | rfl | rfl | rfl⟩
    · exact .inr ⟨y, by omega, .inl ⟨rfl, rfl⟩⟩
    · exact .inr ⟨y, by omega, .inr ⟨rfl, rfl⟩⟩
    · exact .inl ⟨x, by omega, .inl ⟨rfl, rfl⟩⟩
    · exact .inl ⟨x, by omega, .inr ⟨rfl, rfl⟩⟩

theorem Sides.clip_eq_clamped {s : Sides} (pos : 0 < k) (meets : s.meetScreen k = true) : s.clip k = s.clamped k := by
  obtain ⟨right, left, bottom, top⟩ := meetScreen_iff.1 meets
  have columns : 0 < Screen.width * k := Nat.mul_pos (by decide) pos
  have rows : 0 < Screen.height * k := Nat.mul_pos (by decide) pos
  simp only [clip, clamped, clamp, mk.injEq]
  omega

theorem clamp_mono {lo hi : Int} (le : lo ≤ hi) (stop : Int) : clamp lo 0 stop ≤ clamp hi 0 stop := by
  unfold clamp
  omega

/-- The pixels of an outline are those that the rectangle, cut to the screen, encloses and has a side through. -/
theorem meets_iff : o.Meets k x y ↔ RunsThrough k x y o := by
  rw [Meets, points, runsThrough_iff]
  split
  · rename_i shown
    obtain ⟨width, height, meets⟩ := shown
    have columns : (o.sides k).left ≤ (o.sides k).right := Int.mul_le_mul_of_nonneg_right (by omega) (Int.natCast_nonneg _)
    have rows : (o.sides k).top ≤ (o.sides k).bottom := Int.mul_le_mul_of_nonneg_right (by omega) (Int.natCast_nonneg _)
    rw [Sides.clip_eq_clamped (pos_of_meetScreen meets) meets,
      Sides.mem_points (clamp_mono columns _) (clamp_mono rows _)]
    exact ⟨fun ⟨encloses, aligns⟩ => ⟨width, height, meets, encloses, aligns⟩, fun all => all.2.2.2⟩
  · rename_i hidden
    exact ⟨fun mem => (List.not_mem_nil mem).elim, fun all => (hidden ⟨all.1, all.2.1, all.2.2.1⟩).elim⟩

theorem decide_meets (k : Nat) (x y : Int) :
    (fun o => decide (Meets k x y o)) = fun o => decide (RunsThrough k x y o) :=
  funext fun _ => decide_eq_decide.2 meets_iff

/-- **The last outline shows.** Every point that is written while a queue of rectangles is outlined on a picture lies on it,
and its four bytes lie in the buffer. Afterwards each pixel has the opaque color of the last rectangle in the queue whose
outline runs through it, and it is unchanged if there is none. -/
theorem drawAll_shows_last (queue : List Outline) (p : Rgba) :
    (∀ o ∈ queue, ∀ point ∈ o.points p.scale,
      Screen.Contains p.scale point.1 point.2 ∧
        let i := point.2 * (Screen.width * p.scale : Nat) + point.1
        0 ≤ i ∧ 4 * i + 4 ≤ p.bytes.size) ∧
      (drawAll queue p).scale = p.scale ∧
      ∀ x y : Int, (drawAll queue p).pixel? x y =
        match queue.reverse.find? (RunsThrough p.scale x y) with
        | some o => some (o.color.red, o.color.green, o.color.blue, 0xFF)
        | none => p.pixel? x y := by
  refine ⟨fun o _ point mem => ?_, Rgba.scale_drawAll queue p, fun x y => ?_⟩
  · have inside : Screen.Contains p.scale point.1 point.2 := Meets.contains mem
    exact ⟨inside, Rgba.bytes_of_contains inside⟩
  · by_cases inside : Screen.Contains p.scale x y
    · rw [pixel?_drawAll queue p inside, decide_meets]
      rfl
    · have out : ¬Screen.Contains (drawAll queue p).scale x y := by rwa [Rgba.scale_drawAll]
      rw [Rgba.pixel?_eq_none out, Rgba.pixel?_eq_none inside]
      split
      · rename_i o found
        have through := List.find?_some found
        exact absurd (meets_iff.2 (of_decide_eq_true through)).contains inside
      · rfl

/-- The second rectangle reaches past the left and the lower side of the screen, and its upper side crosses the first one. -/
theorem drawAll_shows_last_crossing :
    let first : Outline := ⟨2, 3, 4, 2, ⟨255, 0, 0⟩⟩
    let second : Outline := ⟨-10, 4, 13, 400, ⟨0, 0, 255⟩⟩
    let picture := drawAll [first, second] (.blank 2)
    second ∈ [first, second] ∧ (0, 200) ∈ second.points 2 ∧ Screen.Contains 2 0 200 ∧
      picture.pixel? 4 6 = some (255, 0, 0, 0xFF) ∧ picture.pixel? 4 8 = some (0, 0, 255, 0xFF) ∧
      picture.pixel? 0 200 = some (0, 0, 255, 0xFF) ∧ picture.pixel? 5 9 = (Rgba.blank 2).pixel? 5 9 := by
  intro first second picture
  obtain ⟨written, -, shows⟩ := drawAll_shows_last [first, second] (.blank 2)
  have queued : second ∈ [first, second] := by decide
  have point : (0, 200) ∈ second.points 2 := meets_iff.2 (by decide)
  have found : ∀ x y : Int, picture.pixel? x y = match List.find? (RunsThrough 2 x y) [second, first] with
    | some o => some (o.color.red, o.color.green, o.color.blue, 0xFF)
    | none => (Rgba.blank 2).pixel? x y := shows
  refine ⟨queued, point, (written second queued _ point).1, ?_, ?_, ?_, ?_⟩
  · rw [found, show List.find? (RunsThrough 2 4 6) [second, first] = some first by decide]
  · rw [found, show List.find? (RunsThrough 2 4 8) [second, first] = some second by decide]
  · rw [found, show List.find? (RunsThrough 2 0 200) [second, first] = some second by decide]
  · rw [found, show List.find? (RunsThrough 2 5 9) [second, first] = none by decide]

end Redraw.Outline

import Redraw.Proofs.Triangle.Accuracy

/-!
# The box of a triangle

An edge that goes to the left passes its lower end by some units, since its slope is rounded down. Vertices lie on
multiples of an eighth of a pixel and the centers of the columns halfway between two of them at the nearest, so up to
`0x1FFF` units past an end make no difference to the first column (`firstPixel_sub`). An edge of at most `65528` eighths
of an output pixel in height loses no more than that, and its columns are those between its ends (`Edge.le_column`,
`Edge.column_le`). So a fill stays in the box that the columns and the rows of its vertices span
(`Triangle.fill_within_box`).
-/

namespace Redraw

/-- Positions of vertices are so far apart that a few units below one make no difference to its first pixel. -/
theorem firstPixel_sub (v : Int) (k : Nat) {e : Int} (start : 0 ≤ e) (stop : e < 0x2000) :
    firstPixel (toOutput v k - e) = firstPixel (toOutput v k) := by
  unfold firstPixel toOutput
  omega

namespace Edge

variable {u w : Vertex} {k : Nat} {Y : Int}

/-- The columns of an edge are at or before that of its right end. -/
theorem column_le (top : u.row k ≤ Y) (bottom : Y < w.row k) {right : Int} (hu : u.x ≤ right) (hw : w.x ≤ right) :
    (between u w k).column Y ≤ firstPixel (toOutput right k) :=
  firstPixel_mono <| (xAt_le (Vertex.lt_of_row_lt (top.trans_lt bottom)) (Vertex.row_le_iff.1 top)
    (Vertex.lt_row_iff.1 bottom).le).trans (max_le (toOutput_mono k hu) (toOutput_mono k hw))

/-- The columns of an edge that is not too high are at or after that of its left end. -/
theorem le_column (height : (w.y - u.y) * k ≤ 65528) (top : u.row k ≤ Y) (bottom : Y < w.row k) {left : Int}
    (hu : left ≤ u.x) (hw : left ≤ w.x) : firstPixel (toOutput left k) ≤ (between u w k).column Y := by
  have down := Vertex.lt_of_row_lt (top.trans_lt bottom)
  rw [Vertex.row_le_iff] at top
  rw [Vertex.lt_row_iff] at bottom
  have reach := le_xAt down top bottom.le
  have ends := le_min (toOutput_mono k hu) (toOutput_mono k hw)
  have fall : Y * 0x10000 + 0x8000 - toOutput u.y k < 8191 * 0x10000 := by
    calc Y * 0x10000 + 0x8000 - toOutput u.y k < toOutput w.y k - toOutput u.y k := by omega
      _ = (w.y - u.y) * k * 0x2000 := toOutput_sub w.y u.y k
      _ ≤ 8191 * 0x10000 := by omega
  calc firstPixel (toOutput left k)
      = firstPixel (toOutput left k - ((Y * 0x10000 + 0x8000 - toOutput u.y k) / 0x10000 + 1)) :=
        (firstPixel_sub left k (by omega) (by omega)).symm
    _ ≤ (between u w k).column Y := firstPixel_mono (by omega)

end Edge

namespace Triangle

/-- The least value of a coordinate at the vertices. -/
def least (t : Triangle) (coordinate : Vertex → Int) : Int :=
  min (coordinate t.a) (min (coordinate t.b) (coordinate t.c))

/-- The greatest value of a coordinate at the vertices. -/
def greatest (t : Triangle) (coordinate : Vertex → Int) : Int :=
  max (coordinate t.a) (max (coordinate t.b) (coordinate t.c))

theorem between_least_greatest (t : Triangle) (coordinate : Vertex → Int) :
    ∀ p ∈ t.vertices, t.least coordinate ≤ coordinate p ∧ coordinate p ≤ t.greatest coordinate := by
  rw [forall_mem_vertices]
  unfold least greatest
  omega

/-- The output pixel lies in the columns and the rows that the vertices span. -/
def InBox (t : Triangle) (k : Nat) (X Y : Int) : Prop :=
  (firstPixel (toOutput (t.least (·.x)) k) ≤ X ∧ X < firstPixel (toOutput (t.greatest (·.x)) k)) ∧
    firstPixel (toOutput (t.least (·.y)) k) ≤ Y ∧ Y < firstPixel (toOutput (t.greatest (·.y)) k)

theorem inBox_of_covers {t : Triangle} {k : Nat} {X Y : Int}
    (height : (t.greatest (·.y) - t.least (·.y)) * k ≤ 65528) (covers : t.sorted.Covers k X Y) : t.InBox k X Y := by
  have sorted := (perm_sorted t).subset
  have columns := fun p hp => between_least_greatest t (·.x) p (sorted hp)
  have rows := fun p hp => between_least_greatest t (·.y) p (sorted hp)
  obtain ⟨upper, lower⟩ := heights_sorted t
  refine ⟨⟨?_, covers.lt_right fun p hp => (columns p hp).2⟩, ?_, ?_⟩
  · obtain ⟨u, hu, w, hw, edge, top, bottom⟩ := bound_between (t.sorted.leftEdge_eq k Y) covers.top covers.bottom
    have fall : (w.y - u.y) * k ≤ (t.greatest (·.y) - t.least (·.y)) * k :=
      mul_le_mul_of_nonneg_right (Int.sub_le_sub (rows w hw).2 (rows u hu).1) (Int.natCast_nonneg k)
    calc firstPixel (toOutput (t.least (·.x)) k)
        ≤ (t.sorted.leftEdge k Y).column Y :=
          edge ▸ Edge.le_column (fall.trans height) top bottom (columns u hu).1 (columns w hw).1
      _ ≤ X := covers.left
  · change firstPixel (toOutput t.top k) ≤ Y
    exact upper ▸ covers.top
  · change Y < firstPixel (toOutput t.bottom k)
    exact lower ▸ covers.bottom

/-- **Inside the box.** A fill of a triangle that is at most `65528` eighths of an output pixel high sets only pixels in the
columns and the rows that its vertices span, and changes no pixel outside of them. -/
theorem fill_within_box {t : Triangle} {k : Nat} (height : (t.greatest (·.y) - t.least (·.y)) * k ≤ 65528) :
    (∀ X Y, t.Paints k X Y → t.InBox k X Y) ∧
      ∀ (c : Canvas) (color : UInt8) (X Y : Int), c.scale = k → ¬t.InBox k X Y →
        (c.fillTriangle t color).pixel? X Y = c.pixel? X Y := by
  constructor
  · intro X Y paints
    exact inBox_of_covers height (paints_iff.1 paints).2
  · rintro c color X Y rfl out
    exact c.pixel?_fillTriangle_of_not_covers t color fun covers => out (inBox_of_covers height covers)

/-- Both lower edges of this triangle go to the left, and none of its pixels lies before column 2. -/
theorem fill_within_box_leftward :
    let t : Triangle := ⟨.flat 99 0, .flat 51 37, .flat 16 99⟩
    (t.greatest (·.y) - t.least (·.y)) * (1 : Nat) ≤ 65528 ∧ ∀ X Y, t.Paints 1 X Y → 2 ≤ X := by
  intro t
  have height : (t.greatest (·.y) - t.least (·.y)) * (1 : Nat) ≤ 65528 := by decide
  obtain ⟨inside, -⟩ := fill_within_box height
  refine ⟨height, fun X Y paints => ?_⟩
  obtain ⟨⟨first, -⟩, -⟩ := inside X Y paints
  exact (by decide : (2 : Int) ≤ firstPixel (toOutput (t.least (·.x)) 1)).trans first

end Triangle

end Redraw

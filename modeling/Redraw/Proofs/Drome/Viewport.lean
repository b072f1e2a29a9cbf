import Mathlib.Data.List.GetD
import Redraw.Proofs.Clip.Containment
import Redraw.Proofs.Drome.Walk
import Redraw.Proofs.Triangle.Extent

/-!
# Clipped triangles and their viewport

The clip rectangle of a scene runs through the centers of logical pixels, half a logical pixel past the left and top
sides of the viewport and as far past its right and bottom sides. At scale one the fill rule puts the painted pixels
back into the viewport. At scale `k` they may lie `k / 2` output pixels past its right and bottom sides
(`Pass.clipped_reach`), and no bound is closer (`clipped_within_iff`).
-/

namespace Redraw

/-! ## Triangles of a clipped polygon -/

namespace Polygon

theorem holds_clip {p : Polygon} {flags : ClipFlags} (viewport : Viewport) (narrow : Narrow p.toList) :
    Holds viewport flags (p.clip viewport flags).polygon.toList := by
  rw [toList_clip]
  split
  · intro side _ _ q hq
    cases hq
  · exact inside_foldl_pass flags viewport.sides narrow (by omega)

theorem mem_of_mem_fan {p : Polygon} {t : Triangle} (h : t ∈ p.fan) : ∀ q ∈ t.vertices, q ∈ p.toList := by
  obtain ⟨i, hi, rfl⟩ := List.mem_map.1 h
  have room := List.mem_range.1 (List.mem_reverse.1 hi)
  have corner (j : Nat) (hj : j < p.size) : p.toList.getD j default ∈ p.toList := by
    rw [List.getD_eq_getElem _ _ (by simpa using hj)]
    exact List.getElem_mem _
  intro q hq
  simp only [fanTriangle, Triangle.vertices, List.mem_cons, List.not_mem_nil, or_false] at hq
  rcases hq with rfl | rfl | rfl
  · exact corner 0 (by omega)
  · exact corner (i + 1) (by omega)
  · exact corner (i + 1 + 1) (by omega)

theorem fan_of_toList {p : Polygon} {a b c : Vertex} (h : p.toList = [a, b, c]) : p.fan = [⟨a, b, c⟩] := by
  have size : p.size = 3 := by rw [← Bounded.length_toList, h, List.length_cons, List.length_cons, List.length_singleton]
  rw [fan, size, h]
  rfl

theorem holds_all_iff {viewport : Viewport} {vertices : List Vertex} :
    Holds viewport .all vertices ↔ ∀ p ∈ vertices,
      viewport.left ≤ p.x ∧ p.x ≤ viewport.right ∧ viewport.top ≤ p.y ∧ p.y ≤ viewport.bottom := by
  have named : ∀ flag ∈ [ClipFlags.left, .right, .top, .bottom], ClipFlags.all.contains flag = true := by decide
  simp only [List.forall_mem_cons] at named
  simp only [Holds, Viewport.sides, List.mem_cons, List.not_mem_nil, or_false]
  constructor
  · intro holds p hp
    have left := holds _ (.inl rfl) named.1 p hp
    have right := holds _ (.inr (.inl rfl)) named.2.1 p hp
    have top := holds _ (.inr (.inr (.inl rfl))) named.2.2.1 p hp
    have bottom := holds _ (.inr (.inr (.inr rfl))) named.2.2.2.1 p hp
    simp only [ClipSide.inside, decide_eq_true_eq] at left right top bottom
    exact ⟨left, right, top, bottom⟩
  · rintro inner side (rfl | rfl | rfl | rfl) - p hp <;>
      simp only [ClipSide.inside, decide_eq_true_eq] <;> have := inner p hp <;> omega

end Polygon

theorem Canvas.contains_of_pixel?_ne {c d : Canvas} {X Y : Int} (scale : c.scale = d.scale)
    (ne : c.pixel? X Y ≠ d.pixel? X Y) : Screen.Contains d.scale X Y := by
  by_contra off
  rw [pixel?_eq_none (scale ▸ off), pixel?_eq_none off] at ne
  exact ne rfl

theorem Canvas.pixel?_foldl_fill {fill : Canvas → Triangle → Canvas} {X Y : Int}
    (scale : ∀ c t, (fill c t).scale = c.scale)
    (out : ∀ c t, ¬t.sorted.Covers c.scale X Y → (fill c t).pixel? X Y = c.pixel? X Y) (ts : List Triangle)
    (c : Canvas) (changed : (ts.foldl fill c).pixel? X Y ≠ c.pixel? X Y) : ∃ t ∈ ts, t.sorted.Covers c.scale X Y := by
  induction ts generalizing c with
  | nil => exact absurd rfl changed
  | cons t ts ih =>
    by_cases covers : t.sorted.Covers c.scale X Y
    · exact ⟨t, List.mem_cons_self, covers⟩
    · obtain ⟨later, mem, covers⟩ := ih (fill c t) (by rwa [out c t covers])
      exact ⟨later, List.mem_cons_of_mem t mem, scale c t ▸ covers⟩

/-- A triangle inside the sides that are named comes out of clipping as it is. -/
theorem Triangle.fan_clip_of_holds {t : Triangle} {viewport : Viewport} {flags : ClipFlags}
    (holds : Polygon.Holds viewport flags t.vertices) : Polygon.fan (t.clip viewport flags).polygon = [t] := by
  have vertices : (Polygon.collect t.vertices).polygon.toList = t.vertices := Polygon.toList_collect _
  have area : 3 ≤ (Polygon.collect t.vertices).polygon.toList.length := by
    rw [vertices]
    exact le_rfl
  exact Polygon.fan_of_toList ((Polygon.clip_of_holds area (vertices ▸ holds)).trans vertices)

/-- Filling the fan of a clipped triangle changes only pixels that a triangle inside the clip rectangle covers. -/
theorem Triangle.exists_covers_of_clip {t : Triangle} {viewport : Viewport} {fill : Canvas → Triangle → Canvas}
    {c : Canvas} {X Y : Int} (narrow : Narrow t.vertices) (scale : ∀ c t, (fill c t).scale = c.scale)
    (out : ∀ c t, ¬t.sorted.Covers c.scale X Y → (fill c t).pixel? X Y = c.pixel? X Y)
    (changed : ((Polygon.fan (t.clip viewport .all).polygon).foldl fill c).pixel? X Y ≠ c.pixel? X Y) :
    ∃ part : Triangle, Polygon.Holds viewport .all part.vertices ∧ part.sorted.Covers c.scale X Y := by
  have narrow' : Narrow (Polygon.collect t.vertices).polygon.toList := by
    rw [Polygon.toList_collect]
    exact narrow
  have holds : Polygon.Holds viewport .all (t.clip viewport .all).polygon.toList := Polygon.holds_clip viewport narrow'
  obtain ⟨part, fan, covers⟩ := Canvas.pixel?_foldl_fill scale out _ c changed
  exact ⟨part, fun side hside named q hq => holds side hside named q (Polygon.mem_of_mem_fan fan q hq), covers⟩

/-! ## Records -/

namespace Drome

namespace Record

/-- The record is a triangle that is clipped before it is drawn. -/
def IsClipped (r : Record) (m : Machine) : Prop := r.tag m = 4 ∨ r.tag m = 6

/-- A coordinate that fits a half word. -/
def Half (z : Int) : Prop := -32768 ≤ z ∧ z < 32768

theorem half_along {x y u v : Int} (hx : Half x) (hy : Half y) (hu : Half u) (hv : Half v) (i : Axis) :
    Half ((⟨x, y, u, v⟩ : Vertex).along i) := by
  cases i with
  | x => exact hx
  | y => exact hy
  | u => exact hu
  | v => exact hv

/-- Coordinates of half words are so small that no difference of them leaves the range of a word. -/
theorem narrow_of_half {a b c : Vertex} (ha : ∀ i, Half (a.along i)) (hb : ∀ i, Half (b.along i))
    (hc : ∀ i, Half (c.along i)) : Narrow [a, b, c] := by
  have half : ∀ p ∈ [a, b, c], ∀ i, Half (p.along i) := by simp [ha, hb, hc]
  intro p hp q hq i
  have := half p hp i
  have := half q hq i
  unfold Half at *
  omega

theorem narrow_flatTriangle (r : Record) (m : Machine) : Narrow (r.flatTriangle m).vertices := by
  have none : Half 0 := ⟨by decide, by decide⟩
  have half (i : UInt32) : ∀ a, Half ((r.flatVertex m i).along a) :=
    half_along (signed16_range _) (signed16_range _) none none
  exact narrow_of_half (half 0) (half 1) (half 2)

theorem narrow_texturedTriangle (r : Record) (m : Machine) : Narrow (r.texturedTriangle m).vertices := by
  have half (i : UInt32) : ∀ a, Half ((r.texturedVertex m i).along a) :=
    half_along (signed16_range _) (signed16_range _) (signed16_range _) (signed16_range _)
  exact narrow_of_half (half 0) (half 1) (half 2)

end Record

namespace Scene

/-- The output pixel lies in the viewport, or in one of the `past` columns or rows after it. -/
def ContainsOutput (s : Scene) (k past : Nat) (X Y : Int) : Prop :=
  s.left * k ≤ X ∧ X < s.right * k + past ∧ s.top * k ≤ Y ∧ Y < s.bottom * k + past

theorem bounds_nonneg (m : Machine) (a : Address) : 0 ≤ (Scene.read m a).left ∧ 0 ≤ (Scene.read m a).top :=
  ⟨Int.natCast_nonneg _, Int.natCast_nonneg _⟩

/-- The clip rectangle runs through the centers of logical pixels, which are `k / 2` output pixels into them. -/
theorem firstPixel_center (v : Int) (k : Nat) : firstPixel (toOutput (v * 8 + 4) k) = v * k + k / 2 := by
  have output : toOutput (v * 8 + 4) k = v * k * 0x10000 + k * 0x8000 := by
    unfold toOutput
    ring
  rw [output, firstPixel]
  omega

/-- Half a logical pixel is more than what an edge can lose on its way down the screen. -/
theorem le_firstPixel_center {v n : Int} {k : Nat} (rows : n < (Screen.height * k : Nat)) :
    v * k ≤ firstPixel (toOutput (v * 8 + 4) k - n - 1) := by
  have output : toOutput (v * 8 + 4) k = v * k * 0x10000 + k * 0x8000 := by
    unfold toOutput
    ring
  unfold Screen.height at rows
  rw [output, firstPixel]
  omega

variable {s : Scene} {t : Triangle} {k : Nat} {X Y : Int}

/-- A triangle inside the clip rectangle covers pixels of the viewport and of the `k / 2` rows and columns after it. -/
theorem reach_of_covers (top : 0 ≤ s.top) (inner : Polygon.Holds s.viewport .all t.vertices)
    (covers : t.sorted.Covers k X Y) (screen : Y < (Screen.height * k : Nat)) :
    s.left * k ≤ X ∧ X < s.right * k + k / 2 ∧ s.top * k + k / 2 ≤ Y ∧ Y < s.bottom * k + k / 2 := by
  rw [Polygon.holds_all_iff] at inner
  replace inner := fun p hp => inner p (t.perm_sorted.subset hp)
  simp only [viewport] at inner
  have first := covers.left_le fun p hp => ⟨(inner p hp).1, (inner p hp).2.2.1⟩
  have last := covers.lt_right fun p hp => (inner p hp).2.1
  have above := (inner t.sorted.a t.sorted.a_mem_vertices).2.2.1
  have below := (inner t.sorted.c t.sorted.c_mem_vertices).2.2.2
  refine ⟨?_, ?_, ?_, ?_⟩
  · have start : 0 ≤ toOutput (s.top * 8 + 4) k := mul_nonneg (mul_nonneg (by omega) (Int.natCast_nonneg k)) (by decide)
    exact (le_firstPixel_center (by omega)).trans first
  · rwa [firstPixel_center] at last
  · rw [← firstPixel_center]
    exact (firstPixel_mono (toOutput_mono k above)).trans covers.top
  · rw [← firstPixel_center]
    exact covers.bottom.trans_le (firstPixel_mono (toOutput_mono k below))

end Scene

namespace Pass

variable {p : Pass} {X Y : Int}

theorem exists_covers_of_changed {s : Scene} {r : Record} (clipped : r.IsClipped p.machine)
    (flags : r.clipFlags p.machine = .all) (changed : (p.drawRecord s r).canvas.pixel? X Y ≠ p.canvas.pixel? X Y) :
    ∃ t : Triangle, Polygon.Holds s.viewport .all t.vertices ∧ t.sorted.Covers p.canvas.scale X Y := by
  rcases clipped with tag | tag
  · have kind : PrimitiveKind.ofTag (r.tag p.machine) = .ok .clippedFlat := by rw [tag]; rfl
    rw [drawRecord_of_kind kind, canvas_drawPrimitive_clippedFlat, machine_log, flags] at changed
    exact Triangle.exists_covers_of_clip (r.narrow_flatTriangle p.machine) (fun c t => c.scale_fillTriangle t _)
      (fun c t => c.pixel?_fillTriangle_of_not_covers t _) changed
  · have kind : PrimitiveKind.ofTag (r.tag p.machine) = .ok .clippedAffine := by rw [tag]; rfl
    rw [drawRecord_of_kind kind, canvas_drawPrimitive_clippedAffine, machine_log, flags] at changed
    exact Triangle.exists_covers_of_clip (r.narrow_texturedTriangle p.machine)
      (fun c t => c.scale_fillAffineTriangle t _) (fun c t => c.pixel?_fillAffineTriangle_of_not_covers t _) changed

/-- A clipped triangle reaches the viewport and, past its right and bottom sides, `k / 2` output pixels more. -/
theorem clipped_reach (m : Machine) (a : Address) (p : Pass) (r : Record) (clipped : r.IsClipped p.machine)
    (flags : r.clipFlags p.machine = .all)
    (changed : (p.drawRecord (Scene.read m a) r).canvas.pixel? X Y ≠ p.canvas.pixel? X Y) :
    let s := Scene.read m a
    let k := p.canvas.scale
    s.left * k ≤ X ∧ X < s.right * k + k / 2 ∧ s.top * k + k / 2 ≤ Y ∧ Y < s.bottom * k + k / 2 := by
  intro s k
  obtain ⟨t, inner, covers⟩ := exists_covers_of_changed clipped flags changed
  have screen := Canvas.contains_of_pixel?_ne (p.scale_drawRecord s r) changed
  exact Scene.reach_of_covers (Scene.bounds_nonneg m a).2 inner covers screen.2.2.2

end Pass

/-! ## Outside of the viewport -/

/-- Clipped triangles with all sides named change only pixels of the viewport and of the `past` columns and rows after
it, on pictures of scale `k`. -/
def ClipsWithin (k past : Nat) : Prop :=
  ∀ (m : Machine) (a : Address) (p : Pass) (r : Record), p.canvas.scale = k → r.IsClipped p.machine →
    r.clipFlags p.machine = .all → ∀ X Y,
      (p.drawRecord (Scene.read m a) r).canvas.pixel? X Y ≠ p.canvas.pixel? X Y →
        (Scene.read m a).ContainsOutput k past X Y

/-! A viewport of one column and two rows, and a triangle that reaches half a pixel past its right side: as far as the
clip rectangle does. -/

namespace Spill

def cartridge : ByteArray :=
  ⟨#[0, 0, 0, 0, 0, 0, 0, 0, 0, 0, 0, 0, 0, 0, 0, 0, 0, 0, 0, 0, 0, 0, 0, 0, 0, 0, 0, 0, 0, 0, 0, 0,
    0, 0, 0, 0, 1, 0, 2, 0, 4, 15, 0, 0, 0, 0, 0, 0, 0, 0, 0, 7, 8, 0, 8, 0, 12, 0, 8, 0, 12, 0, 16, 0]⟩

def machine : Machine := .withCartridge cartridge true

def scene : Scene := Scene.read machine 0x08000000

def record : Record := ⟨0x08000028⟩

def triangle : Triangle := ⟨.flat 8 8, .flat 12 8, .flat 12 16⟩

def pass (k : Nat) : Pass := ⟨.blank k, .empty, machine, #[]⟩

theorem scene_bounds : scene.left = 0 ∧ scene.top = 0 ∧ scene.right = 1 ∧ scene.bottom = 2 := by decide

theorem record_fields :
    record.tag machine = 4 ∧ record.clipFlags machine = .all ∧ record.material machine = 7 ∧
      record.flatTriangle machine = triangle := by
  decide

/-- The triangle lies in the clip rectangle, so clipping leaves it as it is. -/
theorem fan_clip : Polygon.fan (triangle.clip scene.viewport .all).polygon = [triangle] := by
  refine Triangle.fan_clip_of_holds (Polygon.holds_all_iff.2 ?_)
  obtain ⟨left, top, right, bottom⟩ := scene_bounds
  simp [Scene.viewport, left, top, right, bottom, triangle, Triangle.vertices, Vertex.flat]

theorem column_left (k : Nat) : (triangle.leftEdge k k).column k = (k * 0x10000 + 0xBFFF) / 0x10000 := by
  have long : triangle.leftEdge k k = .between triangle.a triangle.c k := if_neg (by decide)
  have steep : slope (12 - 8) (16 - 8) = 0x8000 := by
    rw [slope_of_pos _ (by decide)]
    rfl
  rw [long, Edge.column, Edge.xAt_between]
  simp only [triangle, Vertex.flat, steep, firstPixel, toOutput]
  omega

theorem column_right (k : Nat) : (triangle.rightEdge k k).column k = (k * 0x18000 + 0x7FFF) / 0x10000 := by
  have lower : ¬(k : Int) < triangle.b.row k := by
    simp only [triangle, Vertex.flat, Vertex.row, firstPixel, toOutput]
    omega
  have short : triangle.rightEdge k k = .between triangle.b triangle.c k := (if_neg (by decide)).trans (if_neg lower)
  have upright : slope (12 - 12) (16 - 8) = 0 := by
    rw [slope_of_pos _ (by decide)]
    rfl
  rw [short, Edge.column, Edge.xAt_between]
  simp only [triangle, Vertex.flat, upright, firstPixel, toOutput]
  omega

variable {k past : Nat}

theorem covers (short : past < k / 2) : triangle.sorted.Covers k (k + past) k := by
  have sorted : triangle.sorted = triangle := by decide
  rw [sorted]
  refine ⟨?_, ?_, ?_, ?_⟩
  · simp only [triangle, Vertex.flat, Vertex.row, firstPixel, toOutput]
    omega
  · simp only [triangle, Vertex.flat, Vertex.row, firstPixel, toOutput]
    omega
  · rw [column_left]
    omega
  · rw [column_right]
    omega

theorem contains (short : past < k / 2) : Screen.Contains k (k + past) k := by
  simp only [Screen.Contains, Screen.width, Screen.height]
  omega

theorem pixel?_pass (short : past < k / 2) : (pass k).canvas.pixel? (k + past) k = some 0 :=
  (Canvas.pixel?_blank ..).trans (if_pos (contains short))

theorem pixel?_drawRecord (short : past < k / 2) :
    ((pass k).drawRecord scene record).canvas.pixel? (k + past) k = some 7 := by
  obtain ⟨tag, flags, material, vertices⟩ := record_fields
  have kind : PrimitiveKind.ofTag (record.tag (pass k).machine) = .ok .clippedFlat := by
    rw [show (pass k).machine = machine from rfl, tag]
    rfl
  rw [Pass.drawRecord_of_kind kind, Pass.canvas_drawPrimitive_clippedFlat, Pass.machine_log,
    show (pass k).machine = machine from rfl, flags, material, vertices, fan_clip, List.foldl_cons, List.foldl_nil,
    Canvas.pixel?_fillTriangle]
  exact if_pos ⟨contains short, covers short⟩

theorem not_containsOutput (k past : Nat) (Y : Int) : ¬scene.ContainsOutput k past (k + past) Y := by
  rintro ⟨-, right, -⟩
  rw [scene_bounds.2.2.1] at right
  omega

end Spill

/-- **Clipped triangles leave the viewport.** On pictures of scale `k` they reach as far as `k / 2` output pixels past
its right and bottom sides. So they stay inside the viewport at scale one, and at no larger scale. -/
theorem clipped_within_iff (k past : Nat) : ClipsWithin k past ↔ k / 2 ≤ past := by
  constructor
  · intro within
    by_contra short
    replace short : past < k / 2 := by omega
    obtain ⟨tag, flags, -, -⟩ := Spill.record_fields
    have changed : ((Spill.pass k).drawRecord Spill.scene Spill.record).canvas.pixel? (k + past) k ≠
        (Spill.pass k).canvas.pixel? (k + past) k := by
      rw [Spill.pixel?_drawRecord short, Spill.pixel?_pass short]
      decide
    exact Spill.not_containsOutput k past k
      (within Spill.machine 0x08000000 (Spill.pass k) Spill.record rfl (.inl tag) flags _ k changed)
  · intro far m a p r scale clipped flags X Y changed
    have reach := Pass.clipped_reach m a p r clipped flags changed
    simp only [scale] at reach
    unfold Scene.ContainsOutput
    omega

/-- At scale two the triangle of `Spill` paints a pixel past the right side of the viewport. -/
theorem clipped_spill :
    Spill.record.IsClipped Spill.machine ∧ Spill.record.clipFlags Spill.machine = .all ∧
      ((Spill.pass 2).drawRecord Spill.scene Spill.record).canvas.pixel? 2 2 = some 7 ∧
      (Spill.pass 2).canvas.pixel? 2 2 = some 0 ∧ ¬Spill.scene.ContainsOutput 2 0 2 2 :=
  ⟨.inl Spill.record_fields.1, Spill.record_fields.2.1, @Spill.pixel?_drawRecord 2 0 (by decide),
    @Spill.pixel?_pass 2 0 (by decide), Spill.not_containsOutput 2 0 2⟩

end Redraw.Drome

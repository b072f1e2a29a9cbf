import Mathlib.Logic.Basic
import Redraw.Canvas.Pixels
import Redraw.Engine.Drome.Holes

/-!
# Holes leave no trace

A scene is drawn by writes into a picture while holes are punched into it and stay open. Holes may lie in one pixel,
with writes between them, so that the saved pixels nest. The main statement is `drain_run`: filling the holes in gives
the picture of the writes alone, and a hole is reported as visible exactly when no later write hit it.

The invariant of `unwind_run` says what filling in would give at any time of the scene: the picture of the writes so
far. A punch does not change it (`unwind_punch`), and a write may be done before or after filling in (`unwind_write`).
-/

namespace Redraw.Drome

/-! ## Writes -/

inductive Write where
  | pixel (x y : Int) (v : UInt8)
  | span (y left right : Int) (v : UInt8)
  deriving DecidableEq, Repr

namespace Write

def color : Write → UInt8
  | .pixel _ _ v | .span _ _ _ v => v

/-- A write is aimed at a position. -/
def Hits (w : Write) (x y : Int) : Prop :=
  match w with
  | .pixel x' y' _ => x = x' ∧ y = y'
  | .span y' left right _ => y = y' ∧ left ≤ x ∧ x < right

instance (w : Write) (x y : Int) : Decidable (w.Hits x y) := by
  cases w <;> exact inferInstanceAs (Decidable (_ ∧ _))

def apply (w : Write) (c : Canvas) : Canvas :=
  match w with
  | .pixel x y v => c.setPixel x y v
  | .span y left right v => c.fillSpan y left right v

@[simp]
theorem scale_apply (w : Write) (c : Canvas) : (w.apply c).scale = c.scale := by
  cases w <;> simp [apply]

theorem pixel?_apply (w : Write) (c : Canvas) (x y : Int) :
    (w.apply c).pixel? x y = if w.Hits x y ∧ Screen.Contains c.scale x y then some w.color else c.pixel? x y := by
  cases w with
  | pixel x' y' v =>
    simp only [apply, Canvas.pixel?_setPixel, Hits, color, and_assoc]
    by_cases same : x = x' ∧ y = y'
    · obtain ⟨rfl, rfl⟩ := same
      rfl
    · rw [if_neg (fun all => same ⟨all.1, all.2.1⟩), if_neg (fun all => same ⟨all.1, all.2.1⟩)]
  | span y' left right v => simp only [apply, Canvas.pixel?_fillSpan, Hits, color, and_assoc]

/-- A write hides what was stored before at a position that it hits. -/
theorem apply_setPixel_of_hits {w : Write} {c : Canvas} {x y : Int} (hit : w.Hits x y) (v : UInt8) :
    w.apply (c.setPixel x y v) = w.apply c := by
  refine Canvas.ext_pixel? (by simp) fun x' y' => ?_
  simp only [pixel?_apply, Canvas.scale_setPixel, Canvas.pixel?_setPixel]
  by_cases h : w.Hits x' y' ∧ Screen.Contains c.scale x' y'
  · rw [if_pos h, if_pos h]
  · rw [if_neg h, if_neg h, if_neg]
    rintro ⟨rfl, rfl, inside⟩
    exact h ⟨hit, inside⟩

/-- A write commutes with storing a pixel that it does not hit. -/
theorem apply_setPixel_of_not_hits {w : Write} {c : Canvas} {x y : Int} (miss : ¬w.Hits x y) (v : UInt8) :
    w.apply (c.setPixel x y v) = (w.apply c).setPixel x y v := by
  refine Canvas.ext_pixel? (by simp) fun x' y' => ?_
  simp only [pixel?_apply, Canvas.scale_setPixel, Canvas.pixel?_setPixel, scale_apply]
  by_cases same : x' = x ∧ y' = y
  · obtain ⟨rfl, rfl⟩ := same
    simp only [miss, false_and, ↓reduceIte]
  · simp only [← and_assoc, same, false_and, ↓reduceIte]

end Write

def Write.applyAll (ws : List Write) (c : Canvas) : Canvas := ws.foldl (fun c w => w.apply c) c

/-! ## Scenes -/

inductive Action where
  | write (w : Write)
  | punch (sprite : UInt8) (x y : Int)
  deriving DecidableEq, Repr

def writes : List Action → List Write
  | [] => []
  | .write w :: rest => w :: writes rest
  | .punch .. :: rest => writes rest

def AnyHits (ws : List Write) (x y : Int) : Prop := ∃ w ∈ ws, w.Hits x y

instance (ws : List Write) (x y : Int) : Decidable (AnyHits ws x y) :=
  inferInstanceAs (Decidable (∃ w ∈ ws, w.Hits x y))

/-- The verdict on a hole, from the scene after it. -/
def verdict (rest : List Action) (x y : Int) : Visibility :=
  if AnyHits (writes rest) x y then .occluded else .visible

namespace Punched

def act (p : Punched) : Action → Punched
  | .write w => { p with canvas := w.apply p.canvas }
  | .punch sprite x y => (p.punch sprite x y).2

def run (p : Punched) (scene : List Action) : Punched := scene.foldl act p

/-- The verdicts on the holes that a scene opens, in the order in which they are punched. -/
def verdicts (p : Punched) : List Action → List (UInt8 × Visibility)
  | [] => []
  | .write w :: rest => (p.act (.write w)).verdicts rest
  | .punch sprite x y :: rest =>
    let later := (p.act (.punch sprite x y)).verdicts rest
    if (p.punch sprite x y).1.pixel?.isSome then (sprite, verdict rest x y) :: later else later

/-! ## Filling in -/

/-- Fills a list of holes in, the first of the list first. -/
def unwind : List Hole → Canvas → List (UInt8 × Visibility) × Canvas
  | [], c => ([], c)
  | h :: holes, c =>
    let (visibility, c) := fillIn c h
    let (reports, c) := unwind holes c
    ((h.sprite, visibility) :: reports, c)

theorem length_unwind (holes : List Hole) (c : Canvas) : (unwind holes c).1.length = holes.length := by
  induction holes generalizing c with
  | nil => rfl
  | cons h holes ih => simp [unwind, ih]

theorem unwind_append (holes more : List Hole) (c : Canvas) :
    unwind (holes ++ more) c =
      ((unwind holes c).1 ++ (unwind more (unwind holes c).2).1, (unwind more (unwind holes c).2).2) := by
  induction holes generalizing c with
  | nil => rfl
  | cons h holes ih => simp [unwind, ih]

@[simp]
theorem scale_unwind (holes : List Hole) (c : Canvas) : (unwind holes c).2.scale = c.scale := by
  induction holes generalizing c with
  | nil => rfl
  | cons h holes ih =>
    rw [unwind, ih, fillIn]
    split
    · exact Canvas.scale_setPixel ..
    · rfl

/-- Filling in a number of holes is popping as many, the newest first; the older ones stay open. -/
theorem drainN_eq_unwind (newer older : List Hole) (p : Punched) (view : p.holes.toList = older ++ newer.reverse) :
    (drainN newer.length p).1 = (unwind newer p.canvas).1 ∧
      (drainN newer.length p).2.canvas = (unwind newer p.canvas).2 ∧
      (drainN newer.length p).2.holes.toList = older := by
  induction newer generalizing p with
  | nil => exact ⟨rfl, rfl, by simpa [drainN] using view⟩
  | cons newest newer ih =>
    cases popped : p.holes.pop? with
    | none =>
      have := congrArg List.length view
      rw [Bounded.length_toList, (Bounded.pop?_eq_none_iff p.holes).1 popped] at this
      simp at this
    | some top =>
      obtain ⟨hole, holes⟩ := top
      have below := Bounded.toList_of_pop? popped
      rw [view, List.reverse_cons, ← List.append_assoc] at below
      obtain ⟨rest, same⟩ := List.append_inj' below rfl
      obtain rfl := List.singleton_inj.1 same
      obtain ⟨reports, canvas, left⟩ := ih ⟨(fillIn p.canvas newest).2, holes⟩ rest.symm
      simp only [List.length_cons, drainN, popped, unwind]
      exact ⟨by rw [reports], canvas, left⟩

/-- Filling in is popping hole after hole, the newest first. -/
theorem drain_eq_unwind (p : Punched) :
    p.drain.1 = (unwind p.holes.toList.reverse p.canvas).1 ∧
      p.drain.2.canvas = (unwind p.holes.toList.reverse p.canvas).2 ∧ p.drain.2.holes.toList = [] := by
  have all := drainN_eq_unwind p.holes.toList.reverse [] p (by simp)
  rwa [List.length_reverse, Bounded.length_toList] at all

/-- A punch that succeeds, and is filled in at once, is visible and leaves the picture as it was. -/
theorem unwind_punch {c : Canvas} {h : Hole} (saved : c.pixel? h.x h.y = some h.saved) (holes : List Hole) :
    unwind (h :: holes) (c.setPixel h.x h.y 0) =
      ((h.sprite, .visible) :: (unwind holes c).1, (unwind holes c).2) := by
  have inside : Screen.Contains c.scale h.x h.y := by
    rw [← Canvas.isSome_pixel?, saved]
    rfl
  have zero : (c.setPixel h.x h.y 0).pixel? h.x h.y = some 0 := by simp [Canvas.pixel?_setPixel, inside]
  have back : (c.setPixel h.x h.y 0).setPixel h.x h.y h.saved = c := by
    refine Canvas.ext_pixel? (by simp) fun x y => ?_
    simp only [Canvas.pixel?_setPixel, Canvas.scale_setPixel]
    by_cases same : x = h.x ∧ y = h.y
    · rw [if_pos ⟨same.1, same.2, inside⟩, same.1, same.2, saved]
    · simp only [← and_assoc, same, false_and, ↓reduceIte]
  simp [unwind, fillIn, zero, back]

/-- A report on a hole after writes: occluded if one of them is aimed at the hole. -/
def overdrawn (ws : List Write) (h : Hole) (report : UInt8 × Visibility) : UInt8 × Visibility :=
  if AnyHits ws h.x h.y then (report.1, .occluded) else report

theorem overdrawn_append (ws ws' : List Write) (h : Hole) (report : UInt8 × Visibility) :
    overdrawn (ws ++ ws') h report = overdrawn ws' h (overdrawn ws h report) := by
  have split : AnyHits (ws ++ ws') h.x h.y ↔ AnyHits ws h.x h.y ∨ AnyHits ws' h.x h.y := by
    simp only [AnyHits, List.mem_append, or_and_right, exists_or]
  unfold overdrawn
  by_cases first : AnyHits ws h.x h.y <;> by_cases second : AnyHits ws' h.x h.y <;> simp [split, first, second]

theorem zipWith_overdrawn_nil (holes : List Hole) (reports : List (UInt8 × Visibility))
    (length : reports.length = holes.length) : List.zipWith (overdrawn []) holes reports = reports := by
  induction holes generalizing reports with
  | nil => simp [List.eq_nil_of_length_eq_zero length]
  | cons h holes ih =>
    cases reports with
    | nil => rfl
    | cons report reports => simp [overdrawn, AnyHits, ih reports (by simpa using length)]

theorem zipWith_overdrawn_append (ws ws' : List Write) (holes : List Hole) (reports : List (UInt8 × Visibility)) :
    List.zipWith (overdrawn (ws ++ ws')) holes reports =
      List.zipWith (overdrawn ws') holes (List.zipWith (overdrawn ws) holes reports) := by
  induction holes generalizing reports with
  | nil => rfl
  | cons h holes ih =>
    cases reports with
    | nil => rfl
    | cons report reports => simp [overdrawn_append, ih]

theorem fillIn_write {w : Write} (shows : w.color ≠ 0) (c : Canvas) (h : Hole) :
    fillIn (w.apply c) h =
      (if w.Hits h.x h.y then .occluded else (fillIn c h).1, w.apply (fillIn c h).2) := by
  by_cases hit : w.Hits h.x h.y
  · have covered : (w.apply c).pixel? h.x h.y ≠ some 0 := by
      rw [Write.pixel?_apply]
      by_cases inside : Screen.Contains c.scale h.x h.y
      · simp [hit, inside, shows]
      · simp [inside, Canvas.pixel?_eq_none inside]
    have hidden : w.apply (fillIn c h).2 = w.apply c := by
      unfold fillIn
      split
      · exact Write.apply_setPixel_of_hits hit h.saved
      · rfl
    rw [fillIn, if_neg covered, if_pos hit, hidden]
  · have kept : (w.apply c).pixel? h.x h.y = c.pixel? h.x h.y := by simp [Write.pixel?_apply, hit]
    rw [if_neg hit, fillIn, fillIn, kept]
    split
    · rw [Write.apply_setPixel_of_not_hits hit]
    · rfl

/-- A write may be done before the holes are filled in or after it; done before, it occludes the holes it hits. -/
theorem unwind_write {w : Write} (shows : w.color ≠ 0) (holes : List Hole) (c : Canvas) :
    unwind holes (w.apply c) =
      (List.zipWith (overdrawn [w]) holes (unwind holes c).1, w.apply (unwind holes c).2) := by
  induction holes generalizing c with
  | nil => rfl
  | cons h holes ih =>
    have single : AnyHits [w] h.x h.y ↔ w.Hits h.x h.y := by simp [AnyHits]
    simp only [unwind, fillIn_write shows, ih, List.zipWith_cons_cons, overdrawn, single]
    split <;> rfl

/-! ## Whole scenes -/

/-- What a punch can do: open a hole, or nothing at all. -/
theorem punch_cases (p : Punched) (sprite : UInt8) (x y : Int) :
    (∃ saved holes, p.canvas.pixel? x y = some saved ∧ p.holes.push? ⟨sprite, x, y, saved⟩ = some holes ∧
        p.punch sprite x y = (.saved saved, ⟨p.canvas.setPixel x y 0, holes⟩)) ∨
      ((¬Screen.Contains p.canvas.scale x y ∨ p.holes.size = holeCapacity) ∧
        (p.punch sprite x y).1.pixel? = none ∧ (p.punch sprite x y).2 = p) := by
  cases pixel : p.canvas.pixel? x y with
  | none =>
    have off : ¬Screen.Contains p.canvas.scale x y := by
      rw [← Canvas.isSome_pixel?, pixel]
      simp
    exact .inr ⟨.inl off, by simp [punch, pixel, Punch.pixel?], by simp [punch, pixel]⟩
  | some saved =>
    cases pushed : p.holes.push? ⟨sprite, x, y, saved⟩ with
    | none =>
      have full := (Bounded.push?_eq_none_iff _ _).1 pushed
      exact .inr ⟨.inr full, by simp [punch, pixel, pushed, Punch.pixel?], by simp [punch, pixel, pushed]⟩
    | some holes => exact .inl ⟨saved, holes, rfl, pushed, by simp [punch, pixel, pushed]⟩

/-- A punch succeeds exactly on the picture and with room for another hole. -/
theorem isSome_punch (p : Punched) (sprite : UInt8) (x y : Int) :
    (p.punch sprite x y).1.pixel?.isSome ↔ Screen.Contains p.canvas.scale x y ∧ p.holes.size ≠ holeCapacity := by
  rcases p.punch_cases sprite x y with ⟨saved, holes, pixel, pushed, done⟩ | ⟨why, refused, -⟩
  · have inside : Screen.Contains p.canvas.scale x y := by
      rw [← Canvas.isSome_pixel?, pixel]
      rfl
    have room : p.holes.size ≠ holeCapacity := by
      rw [Ne, ← Bounded.push?_eq_none_iff p.holes ⟨sprite, x, y, saved⟩, pushed]
      simp
    simp [done, Punch.pixel?, inside, room]
  · rw [refused]
    simp only [Option.isSome_none, Bool.false_eq_true, false_iff, not_and_or, not_not]
    exact why

@[simp]
theorem size_act_write (p : Punched) (w : Write) : (p.act (.write w)).holes.size = p.holes.size := rfl

@[simp]
theorem size_act_punch (p : Punched) (sprite : UInt8) (x y : Int) :
    (p.act (.punch sprite x y)).holes.size =
      if Screen.Contains p.canvas.scale x y ∧ p.holes.size ≠ holeCapacity then p.holes.size + 1
      else p.holes.size := by
  simp only [← isSome_punch p sprite x y]
  rcases p.punch_cases sprite x y with ⟨saved, holes, -, pushed, done⟩ | ⟨-, refused, same⟩
  · have := congrArg List.length (Bounded.toList_push? pushed)
    simpa [act, done, Punch.pixel?] using this
  · simp [act, refused, same]

@[simp]
theorem scale_act (p : Punched) (action : Action) : (p.act action).canvas.scale = p.canvas.scale := by
  cases action with
  | write w => exact w.scale_apply p.canvas
  | punch sprite x y =>
    rcases p.punch_cases sprite x y with ⟨saved, holes, -, -, done⟩ | ⟨-, -, same⟩
    · simp [act, done]
    · simp [act, same]

/-- What filling in gives after a scene, from what it would have given before: the writes of the scene are added to
the picture, its holes to the reports, and the writes count against the holes that were open. -/
theorem unwind_run (scene : List Action) (p : Punched) (shows : ∀ w ∈ writes scene, w.color ≠ 0) :
    unwind (p.run scene).holes.toList.reverse (p.run scene).canvas =
      ((p.verdicts scene).reverse ++
          List.zipWith (overdrawn (writes scene)) p.holes.toList.reverse
            (unwind p.holes.toList.reverse p.canvas).1,
        Write.applyAll (writes scene) (unwind p.holes.toList.reverse p.canvas).2) := by
  induction scene generalizing p with
  | nil =>
    rw [writes, zipWith_overdrawn_nil _ _ (length_unwind ..)]
    rfl
  | cons action rest ih =>
    cases action with
    | write w =>
      rw [writes, List.forall_mem_cons] at shows
      have step := ih (p.act (.write w)) shows.2
      rw [show p.run (.write w :: rest) = (p.act (.write w)).run rest from rfl, step]
      rw [writes, show w :: writes rest = [w] ++ writes rest from rfl, zipWith_overdrawn_append]
      simp only [act, unwind_write shows.1, verdicts]
      rfl
    | punch sprite x y =>
      have step := ih (p.act (.punch sprite x y)) shows
      rw [show p.run (.punch sprite x y :: rest) = (p.act (.punch sprite x y)).run rest from rfl, step]
      rcases p.punch_cases sprite x y with ⟨saved, holes, pixel, pushed, done⟩ | ⟨-, refused, same⟩
      · have view := Bounded.toList_push? pushed
        have filled := unwind_punch (h := ⟨sprite, x, y, saved⟩) pixel p.holes.toList.reverse
        simp only [act, done, view, List.reverse_append, List.reverse_singleton, List.singleton_append, filled,
          verdicts, writes]
        have marked : overdrawn (writes rest) ⟨sprite, x, y, saved⟩ (sprite, .visible) =
            (sprite, verdict rest x y) := by
          unfold overdrawn verdict
          split <;> rfl
        simp [Punch.pixel?, marked]
      · simp only [act, same, verdicts, refused, writes]
        rfl

/-- **Holes leave no trace.** Filling the holes of a scene in gives the picture of its writes alone. The holes are
reported on newest first, each as visible exactly when no write after it was aimed at it, and none is left open. A
punch fails exactly when it is off the picture or finds as many holes open as there can be, and then does nothing. -/
theorem drain_run (p : Punched) (scene : List Action) (closed : p.holes.toList = [])
    (shows : ∀ w ∈ writes scene, w.color ≠ 0) :
    (p.run scene).drain.1 = (p.verdicts scene).reverse ∧
      (p.run scene).drain.2.canvas = Write.applyAll (writes scene) p.canvas ∧
      (p.run scene).drain.2.holes.toList = [] ∧
      ∀ (q : Punched) (sprite : UInt8) (x y : Int),
        ((q.punch sprite x y).1.pixel? = none ↔
            ¬Screen.Contains q.canvas.scale x y ∨ q.holes.size = holeCapacity) ∧
          ((q.punch sprite x y).1.pixel? = none → (q.punch sprite x y).2 = q) := by
  obtain ⟨reports, canvas, empty⟩ := drain_eq_unwind (p.run scene)
  have all := unwind_run scene p shows
  simp only [closed, List.reverse_nil, unwind, List.zipWith_nil_left, List.append_nil] at all
  rw [all] at reports canvas
  refine ⟨reports, canvas, empty, fun q sprite x y => ⟨?_, fun refused => ?_⟩⟩
  · rw [← Option.not_isSome_iff_eq_none, isSome_punch, not_and_or, not_not]
  · rcases q.punch_cases sprite x y with ⟨saved, holes, -, -, done⟩ | ⟨-, -, same⟩
    · simp [done, Punch.pixel?] at refused
    · exact same

/-- Three holes in one pixel, with a write before the last of them, and a punch off the picture. -/
theorem drain_run_nested :
    let p : Punched := ⟨.blank 1, .empty⟩
    let scene : List Action := [.write (.pixel 3 4 7), .punch 0 3 4, .punch 1 3 4, .write (.span 4 0 10 9),
      .punch 2 3 4, .punch 3 (-1) 4]
    p.holes.toList = [] ∧ (∀ w ∈ writes scene, w.color ≠ 0) ∧
      (p.run scene).drain.1 = [(2, .visible), (1, .occluded), (0, .occluded)] ∧
      (p.run scene).drain.2.canvas = ((Canvas.blank 1).setPixel 3 4 7).fillSpan 4 0 10 9 := by
  intro p scene
  have closed : p.holes.toList = [] := Bounded.toList_empty
  have shows : ∀ w ∈ writes scene, w.color ≠ 0 := by decide
  have drawn (c : Canvas) : Write.applyAll (writes scene) c = (c.setPixel 3 4 7).fillSpan 4 0 10 9 := rfl
  have opened (q : Punched) (scale : q.canvas.scale = 1) (none_open : q.holes.size = 0) :
      q.verdicts scene = [(0, .occluded), (1, .occluded), (2, .visible)] := by
    have on : Screen.Contains 1 3 4 := by decide
    have off : ¬Screen.Contains 1 (-1) 4 := by decide
    simp only [scene, verdicts, isSome_punch, scale_act, size_act_write, size_act_punch, scale, none_open, on, off]
    decide
  obtain ⟨reports, canvas, -, -⟩ := drain_run p scene closed shows
  refine ⟨closed, shows, ?_, canvas.trans (drawn _)⟩
  rw [reports, opened p rfl rfl]
  rfl

end Punched

end Redraw.Drome

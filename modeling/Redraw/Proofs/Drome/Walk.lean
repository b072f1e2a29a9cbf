import Redraw.Engine.Drome.Pass
import Redraw.Proofs.Calls
import Redraw.Proofs.Canvas.Scale
import Redraw.Proofs.Occlusion

/-!
# What a walk over the stream does

An occluder stores a status of its sprite and may open a hole (`punchOccluder_spec`); any other record only draws and
reports (`drawRecord_of_tag_ne`). A walk meets a list of occluders (`occluders`), and what it leaves open and stores is
told by them alone (`walk_spec`). Every record is reported when it is met, and what is reported until the next one is
about drawing it (`adds_drawRecord`).
-/

namespace Redraw

/-- The event is about the record that was reported before it. -/
def Event.IsDetail : Event → Prop
  | .clipOverflow | .clipped _ | .staticTextured | .occlusionFull _ => True
  | _ => False

namespace Drome

/-- How a record is reported when it is met. -/
def Record.heading (r : Record) (m : Machine) : Event :=
  match PrimitiveKind.ofTag (r.tag m) with
  | .ok kind => .primitive kind r.address
  | .error e => .primitiveSkipped e r.address

theorem Record.heading_isHandled (r : Record) (m : Machine) : ¬(r.heading m).IsUnhandled := by
  unfold heading
  split <;> exact id

namespace PrimitiveKind

theorem ofTag_eq_occluder_iff (tag : UInt8) : ofTag tag = .ok .occluder ↔ tag = 7 := by
  unfold ofTag
  split <;> simp_all

end PrimitiveKind

/-- What a punch does: it opens a hole, or it does nothing. -/
theorem Punched.punch_eq (p : Punched) (sprite : UInt8) (x y : Int) :
    let saved := (p.canvas.pixel? x y).getD 0
    ((p.punch sprite x y).1.pixel? = some saved ∧
        (p.punch sprite x y).2.holes.toList = p.holes.toList ++ [⟨sprite, x, y, saved⟩] ∧
        (p.punch sprite x y).2.canvas = p.canvas.setPixel x y 0) ∨
      ((p.punch sprite x y).1.pixel? = none ∧ (p.punch sprite x y).2 = p) := by
  rcases p.punch_cases sprite x y with ⟨saved, holes, pixel, pushed, done⟩ | ⟨-, refused, same⟩
  · left
    rw [done, pixel]
    exact ⟨rfl, Bounded.toList_push? pushed, rfl⟩
  · exact .inr ⟨refused, same⟩

/-- A record that a walk meets, and the pass that meets it. -/
structure Visit where
  record : Record
  pass : Pass

namespace Visit

variable (v : Visit) (s : Scene)

def sprite : UInt8 := v.record.spriteIndex v.pass.machine

/-- Where the sprite of the occluder is. -/
def position : Int × Int := s.spritePosition v.pass.machine v.sprite

/-- Where the sprite is on the picture. -/
def outputPosition : Int × Int :=
  ((v.position s).1 * v.pass.canvas.scale, (v.position s).2 * v.pass.canvas.scale)

/-- The hole that the occluder opens, if it opens one. -/
def hole : Hole :=
  let saved := v.pass.canvas.pixel? (v.outputPosition s).1 (v.outputPosition s).2
  ⟨v.sprite, (v.outputPosition s).1, (v.outputPosition s).2, saved.getD 0⟩

/-- The attempt of the occluder to open a hole. -/
def attempt : Punch × Punched :=
  Punched.punch ⟨v.pass.canvas, v.pass.holes⟩ v.sprite (v.outputPosition s).1 (v.outputPosition s).2

/-- The occluder opens a hole: its sprite is in the viewport and on the picture, and there is room for another hole. -/
def Punches : Prop :=
  s.containsPixel (v.position s).1 (v.position s).2 ∧
    Screen.Contains v.pass.canvas.scale (v.outputPosition s).1 (v.outputPosition s).2 ∧
    v.pass.holes.size ≠ holeCapacity

instance : Decidable (v.Punches s) := inferInstanceAs (Decidable (_ ∧ _ ∧ _))

/-- What the occluder stores as the status of its sprite, for now: the pixel where it opens a hole. -/
def status : UInt16 := if v.Punches s then (v.hole s).saved.toUInt16 else Visibility.outside.code

end Visit

/-- The holes that occluders open, in the order in which they are met. -/
def opened (s : Scene) (visits : List Visit) : List Hole := (visits.filter (·.Punches s)).map (·.hole s)

theorem opened_append (s : Scene) (visits more : List Visit) :
    opened s (visits ++ more) = opened s visits ++ opened s more := by
  rw [opened, List.filter_append, List.map_append]
  rfl

theorem opened_singleton (s : Scene) (v : Visit) : opened s [v] = if v.Punches s then [v.hole s] else [] := by
  by_cases punches : v.Punches s <;> simp [opened, punches]

namespace Pass

variable {s : Scene} {r : Record} {p : Pass}

/-! ## Reporting and drawing -/

@[simp]
theorem canvas_log (p : Pass) (e : Event) : (p.log e).canvas = p.canvas := rfl

@[simp]
theorem holes_log (p : Pass) (e : Event) : (p.log e).holes = p.holes := rfl

@[simp]
theorem machine_log (p : Pass) (e : Event) : (p.log e).machine = p.machine := rfl

@[simp]
theorem canvas_draw (p : Pass) (drawing : Canvas → Canvas) : (p.draw drawing).canvas = drawing p.canvas := rfl

@[simp]
theorem holes_draw (p : Pass) (drawing : Canvas → Canvas) : (p.draw drawing).holes = p.holes := rfl

@[simp]
theorem machine_draw (p : Pass) (drawing : Canvas → Canvas) : (p.draw drawing).machine = p.machine := rfl

theorem logDropped_induction {P : Pass → Prop} (step : ∀ p, P p → P (p.log .clipOverflow)) (h : P p) (dropped : Nat) :
    P (p.logDropped dropped) := by
  unfold logDropped
  induction dropped generalizing p with
  | zero => exact h
  | succ n ih => exact ih (step p h)

@[simp]
theorem canvas_logDropped (p : Pass) (dropped : Nat) : (p.logDropped dropped).canvas = p.canvas :=
  logDropped_induction (P := (·.canvas = p.canvas)) (fun _ h => h) rfl dropped

@[simp]
theorem holes_logDropped (p : Pass) (dropped : Nat) : (p.logDropped dropped).holes = p.holes :=
  logDropped_induction (P := (·.holes = p.holes)) (fun _ h => h) rfl dropped

@[simp]
theorem machine_logDropped (p : Pass) (dropped : Nat) : (p.logDropped dropped).machine = p.machine :=
  logDropped_induction (P := (·.machine = p.machine)) (fun _ h => h) rfl dropped

/-! ## Occluders -/

theorem punchOccluder_eq (v : Visit) (s : Scene) :
    v.pass.punchOccluder s v.record =
      if s.containsPixel (v.position s).1 (v.position s).2 then
        ⟨(v.attempt s).2.canvas, (v.attempt s).2.holes,
          s.setSpriteStatus v.pass.machine v.sprite
            (((v.attempt s).1.pixel?.map (·.toUInt16)).getD Visibility.outside.code),
          if (v.attempt s).1 = .full then v.pass.events.push (.occlusionFull v.sprite) else v.pass.events⟩
      else { v.pass with machine := s.setSpriteStatus v.pass.machine v.sprite Visibility.outside.code } := by
  unfold punchOccluder Visit.attempt Visit.outputPosition Visit.position Visit.sprite
  -- The position stays a variable while the two sides are compared: its numerals are too large to be computed with.
  obtain ⟨position, read⟩ : ∃ f, s.spritePosition v.pass.machine = f := ⟨_, rfl⟩
  rw [read]

/-- What an occluder does: it opens a hole, or it leaves the picture and the holes alone. -/
theorem punchOccluder_cases (v : Visit) (s : Scene) :
    (v.Punches s ∧ (v.pass.punchOccluder s v.record).holes.toList = v.pass.holes.toList ++ [v.hole s] ∧
        (v.pass.punchOccluder s v.record).canvas = v.pass.canvas.setPixel (v.hole s).x (v.hole s).y 0 ∧
        (v.pass.punchOccluder s v.record).machine =
          s.setSpriteStatus v.pass.machine v.sprite (v.hole s).saved.toUInt16) ∨
      (¬v.Punches s ∧ (v.pass.punchOccluder s v.record).holes = v.pass.holes ∧
        (v.pass.punchOccluder s v.record).canvas = v.pass.canvas ∧
        (v.pass.punchOccluder s v.record).machine =
          s.setSpriteStatus v.pass.machine v.sprite Visibility.outside.code) := by
  rw [punchOccluder_eq]
  by_cases viewport : s.containsPixel (v.position s).1 (v.position s).2
  · rw [if_pos viewport]
    have punches : v.Punches s ↔ (v.attempt s).1.pixel?.isSome := by
      rw [Visit.Punches, Visit.attempt, Punched.isSome_punch]
      exact and_iff_right viewport
    rw [punches, Visit.attempt, Visit.hole]
    obtain ⟨⟨x, y⟩, output⟩ : ∃ o, v.outputPosition s = o := ⟨_, rfl⟩
    rw [output]
    rcases Punched.punch_eq ⟨v.pass.canvas, v.pass.holes⟩ v.sprite x y with ⟨saved, holes, canvas⟩ | ⟨refused, same⟩
    · left
      rw [saved]
      exact ⟨rfl, holes, canvas, rfl⟩
    · right
      rw [refused, same]
      exact ⟨by simp, rfl, rfl, rfl⟩
  · rw [if_neg viewport]
    exact .inr ⟨fun punches => viewport punches.1, rfl, rfl, rfl⟩

/-- An occluder may open a hole, and stores a status of its sprite. -/
theorem punchOccluder_spec (p : Pass) (s : Scene) (r : Record) :
    (p.punchOccluder s r).holes.toList = p.holes.toList ++ opened s [⟨r, p⟩] ∧
      (p.punchOccluder s r).canvas.scale = p.canvas.scale ∧
      (p.punchOccluder s r).machine =
        s.setSpriteStatus p.machine (r.spriteIndex p.machine) ((⟨r, p⟩ : Visit).status s) := by
  rw [opened_singleton, Visit.status]
  rcases punchOccluder_cases ⟨r, p⟩ s with ⟨punches, holes, canvas, machine⟩ | ⟨refused, holes, canvas, machine⟩
  · rw [if_pos punches, if_pos punches, holes, canvas, machine, Canvas.scale_setPixel]
    exact ⟨rfl, rfl, rfl⟩
  · rw [if_neg refused, if_neg refused, holes, canvas, machine, List.append_nil]
    exact ⟨rfl, rfl, rfl⟩

/-! ## Records -/

/-- The occluder that a record is, if it is one. -/
def met (r : Record) (p : Pass) : List Visit := if r.tag p.machine = 7 then [⟨r, p⟩] else []

theorem met_of_tag (tag : r.tag p.machine = 7) : met r p = [⟨r, p⟩] := if_pos tag

theorem met_of_tag_ne (tag : r.tag p.machine ≠ 7) : met r p = [] := if_neg tag

theorem drawRecord_of_kind {kind : PrimitiveKind} (h : PrimitiveKind.ofTag (r.tag p.machine) = .ok kind) :
    p.drawRecord s r = (p.log (.primitive kind r.address)).drawPrimitive s r kind := by
  rw [drawRecord, h]

theorem drawRecord_of_error {e : Error} (h : PrimitiveKind.ofTag (r.tag p.machine) = .error e) :
    p.drawRecord s r = p.log (.primitiveSkipped e r.address) := by
  rw [drawRecord, h]

theorem drawRecord_of_tag (tag : r.tag p.machine = 7) (s : Scene) :
    p.drawRecord s r = (p.log (.primitive .occluder r.address)).punchOccluder s r := by
  rw [drawRecord_of_kind ((PrimitiveKind.ofTag_eq_occluder_iff _).2 tag), drawPrimitive]

theorem canvas_drawPrimitive_flat (p : Pass) (s : Scene) (r : Record) :
    (p.drawPrimitive s r .flat).canvas = p.canvas.fillTriangle (r.flatTriangle p.machine) (r.material p.machine) := by
  rw [drawPrimitive, canvas_draw]

theorem canvas_drawPrimitive_affine (p : Pass) (s : Scene) (r : Record) :
    (p.drawPrimitive s r .affine).canvas =
      p.canvas.fillAffineTriangle (r.texturedTriangle p.machine)
        (s.texture p.machine (r.material p.machine)).texel := by
  rw [drawPrimitive, canvas_draw]

theorem canvas_drawPrimitive_clippedFlat (p : Pass) (s : Scene) (r : Record) :
    (p.drawPrimitive s r .clippedFlat).canvas =
      (Polygon.fan ((r.flatTriangle p.machine).clip s.viewport (r.clipFlags p.machine)).polygon).foldl
        (fun c t => c.fillTriangle t (r.material p.machine)) p.canvas := by
  simp only [drawPrimitive, canvas_draw, canvas_log, canvas_logDropped]

theorem canvas_drawPrimitive_clippedAffine (p : Pass) (s : Scene) (r : Record) :
    (p.drawPrimitive s r .clippedAffine).canvas =
      (Polygon.fan ((r.texturedTriangle p.machine).clip s.viewport (r.clipFlags p.machine)).polygon).foldl
        (fun c t => c.fillAffineTriangle t (s.texture p.machine (r.material p.machine)).texel) p.canvas := by
  simp only [drawPrimitive, canvas_draw, canvas_logDropped]

theorem drawPrimitive_of_ne {kind : PrimitiveKind} (h : kind ≠ .occluder) (p : Pass) (s : Scene) (r : Record) :
    (p.drawPrimitive s r kind).machine = p.machine ∧ (p.drawPrimitive s r kind).holes = p.holes ∧
      (p.drawPrimitive s r kind).canvas.scale = p.canvas.scale := by
  cases kind with
  | flat =>
    refine ⟨by rw [drawPrimitive, machine_draw], by rw [drawPrimitive, holes_draw], ?_⟩
    rw [canvas_drawPrimitive_flat, Canvas.scale_fillTriangle]
  | affine =>
    refine ⟨by rw [drawPrimitive, machine_draw], by rw [drawPrimitive, holes_draw], ?_⟩
    rw [canvas_drawPrimitive_affine, Canvas.scale_fillAffineTriangle]
  | clippedFlat =>
    refine ⟨by simp [drawPrimitive], by simp [drawPrimitive], ?_⟩
    rw [canvas_drawPrimitive_clippedFlat, Canvas.foldl_scale fun c t => c.scale_fillTriangle t _]
  | clippedAffine =>
    refine ⟨by simp [drawPrimitive], by simp [drawPrimitive], ?_⟩
    rw [canvas_drawPrimitive_clippedAffine, Canvas.foldl_scale fun c t => c.scale_fillAffineTriangle t _]
  | staticTextured | clippedStaticTextured => exact ⟨rfl, rfl, rfl⟩
  | occluder => exact absurd rfl h

/-- What a record that is no occluder draws depends on the picture and the machine alone. -/
theorem canvas_drawPrimitive_congr {q : Pass} {kind : PrimitiveKind} (other : kind ≠ .occluder)
    (canvas : q.canvas = p.canvas) (machine : q.machine = p.machine) (s : Scene) (r : Record) :
    (q.drawPrimitive s r kind).canvas = (p.drawPrimitive s r kind).canvas := by
  cases kind with
  | flat => rw [canvas_drawPrimitive_flat, canvas_drawPrimitive_flat, canvas, machine]
  | affine => rw [canvas_drawPrimitive_affine, canvas_drawPrimitive_affine, canvas, machine]
  | clippedFlat => rw [canvas_drawPrimitive_clippedFlat, canvas_drawPrimitive_clippedFlat, canvas, machine]
  | clippedAffine => rw [canvas_drawPrimitive_clippedAffine, canvas_drawPrimitive_clippedAffine, canvas, machine]
  | staticTextured | clippedStaticTextured => exact canvas
  | occluder => exact absurd rfl other

theorem drawRecord_of_tag_ne (tag : r.tag p.machine ≠ 7) (s : Scene) :
    (p.drawRecord s r).machine = p.machine ∧ (p.drawRecord s r).holes = p.holes ∧
      (p.drawRecord s r).canvas.scale = p.canvas.scale := by
  cases h : PrimitiveKind.ofTag (r.tag p.machine) with
  | error e =>
    rw [drawRecord_of_error h]
    exact ⟨rfl, rfl, rfl⟩
  | ok kind =>
    have other : kind ≠ .occluder := fun occluder => tag ((PrimitiveKind.ofTag_eq_occluder_iff _).1 (occluder ▸ h))
    rw [drawRecord_of_kind h]
    exact drawPrimitive_of_ne other (p.log _) s r

theorem punches_log (r : Record) (p : Pass) (e : Event) (s : Scene) :
    (⟨r, p.log e⟩ : Visit).Punches s ↔ (⟨r, p⟩ : Visit).Punches s := Iff.rfl

theorem visit_log (r : Record) (p : Pass) (e : Event) (s : Scene) :
    opened s [⟨r, p.log e⟩] = opened s [⟨r, p⟩] ∧ (⟨r, p.log e⟩ : Visit).status s = (⟨r, p⟩ : Visit).status s := by
  rw [opened_singleton, opened_singleton, Visit.status, Visit.status]
  simp only [punches_log]
  exact ⟨rfl, rfl⟩

/-- A record may open a hole and may store the status of a sprite, if it is an occluder. -/
theorem drawRecord_spec (p : Pass) (s : Scene) (r : Record) :
    (p.drawRecord s r).holes.toList = p.holes.toList ++ opened s (met r p) ∧
      (p.drawRecord s r).canvas.scale = p.canvas.scale ∧
      (p.drawRecord s r).machine =
        (met r p).foldl (fun m v => s.setSpriteStatus m v.sprite (v.status s)) p.machine := by
  by_cases tag : r.tag p.machine = 7
  · obtain ⟨opens, status⟩ := visit_log r p (.primitive .occluder r.address) s
    obtain ⟨holes, scale, machine⟩ := punchOccluder_spec (p.log (.primitive .occluder r.address)) s r
    rw [met_of_tag tag, drawRecord_of_tag tag, holes, scale, machine, opens, status]
    exact ⟨rfl, rfl, rfl⟩
  · obtain ⟨machine, holes, scale⟩ := drawRecord_of_tag_ne tag s
    rw [met_of_tag_ne tag, holes, scale, machine]
    exact ⟨(List.append_nil _).symm, rfl, rfl⟩

@[simp]
theorem scale_drawRecord (p : Pass) (s : Scene) (r : Record) : (p.drawRecord s r).canvas.scale = p.canvas.scale :=
  (drawRecord_spec p s r).2.1

/-! ## Walks -/

/-- The occluders that the walk from `r` on meets. -/
def occluders (s : Scene) : Nat → Record → Pass → List Visit
  | 0, _, _ => []
  | n + 1, r, p =>
    if r.tag p.machine = 0 then []
    else met r p ++ occluders s n (r.next (p.drawRecord s r).machine) (p.drawRecord s r)

theorem walk_of_end {n : Nat} (stop : r.tag p.machine = 0) (s : Scene) : walk s n r p = (p, 0) := by
  cases n <;> rw [walk, if_pos stop]

theorem walk_zero (more : r.tag p.machine ≠ 0) (s : Scene) :
    walk s 0 r p = (p.log (.endlessStream s.stream), 0) := by
  rw [walk, if_neg more]

theorem walk_succ {n : Nat} (more : r.tag p.machine ≠ 0) (s : Scene) :
    (walk s (n + 1) r p).1 = (walk s n (r.next (p.drawRecord s r).machine) (p.drawRecord s r)).1 := by
  rw [walk, if_neg more]

theorem count_succ {n : Nat} (more : r.tag p.machine ≠ 0) (s : Scene) :
    (walk s (n + 1) r p).2 = (walk s n (r.next (p.drawRecord s r).machine) (p.drawRecord s r)).2 + 1 := by
  rw [walk, if_neg more]

theorem walk_induction {P : Pass → Prop} (logged : ∀ p, P p → P (p.log (.endlessStream s.stream)))
    (drawn : ∀ p r, P p → P (p.drawRecord s r)) (n : Nat) (r : Record) (h : P p) : P (walk s n r p).1 := by
  induction n generalizing r p with
  | zero =>
    by_cases stop : r.tag p.machine = 0
    · rwa [walk_of_end stop]
    · rw [walk_zero stop]
      exact logged p h
  | succ n ih =>
    by_cases stop : r.tag p.machine = 0
    · rwa [walk_of_end stop]
    · rw [walk_succ stop]
      exact ih _ (drawn p r h)

/-- A walk opens the holes of the occluders that it meets, and stores a status for each of them. -/
theorem walk_spec (n : Nat) (r : Record) (p : Pass) (s : Scene) :
    (walk s n r p).1.holes.toList = p.holes.toList ++ opened s (occluders s n r p) ∧
      (walk s n r p).1.canvas.scale = p.canvas.scale ∧
      (walk s n r p).1.machine =
        (occluders s n r p).foldl (fun m v => s.setSpriteStatus m v.sprite (v.status s)) p.machine := by
  induction n generalizing r p with
  | zero =>
    by_cases stop : r.tag p.machine = 0
    · rw [walk_of_end stop]
      exact ⟨(List.append_nil _).symm, rfl, rfl⟩
    · rw [walk_zero stop]
      exact ⟨(List.append_nil _).symm, rfl, rfl⟩
  | succ n ih =>
    by_cases stop : r.tag p.machine = 0
    · rw [walk_of_end stop, occluders, if_pos stop]
      exact ⟨(List.append_nil _).symm, rfl, rfl⟩
    · obtain ⟨holes, scale, machine⟩ := drawRecord_spec p s r
      obtain ⟨holes', scale', machine'⟩ := ih (r.next (p.drawRecord s r).machine) (p.drawRecord s r)
      rw [walk_succ stop, occluders, if_neg stop, List.foldl_append, ← machine, opened_append, ← List.append_assoc,
        ← holes, ← scale]
      exact ⟨holes', scale', machine'⟩

/-! ## Reports -/

/-- No report of the pass is on a call at an address that no engine armed. -/
def IsHandled (p : Pass) : Prop := Event.AllHandled p.events.toList

/-- From `p` to `q` the pass reported only such events. -/
def Adds (P : Event → Prop) (p q : Pass) : Prop :=
  ∃ more, q.events.toList = p.events.toList ++ more ∧ ∀ e ∈ more, P e

variable {P : Event → Prop} {q p' : Pass}

theorem Adds.of_eq (same : q.events = p.events) : p.Adds P q := by
  refine ⟨[], ?_, nofun⟩
  rw [same, List.append_nil]

theorem Adds.of_push {e : Event} (pushed : q.events = p.events.push e) (h : P e) : p.Adds P q := by
  refine ⟨[e], ?_, ?_⟩
  · rw [pushed, Array.toList_push]
  · rintro _ (_ | ⟨_, ⟨⟩⟩)
    exact h

theorem Adds.trans (first : p.Adds P q) (second : q.Adds P p') : p.Adds P p' := by
  obtain ⟨more, events, holds⟩ := first
  obtain ⟨more', events', holds'⟩ := second
  refine ⟨more ++ more', ?_, List.forall_mem_append.2 ⟨holds, holds'⟩⟩
  rw [events', events, List.append_assoc]

theorem Adds.log {e : Event} (added : p.Adds P q) (h : P e) : p.Adds P (q.log e) := added.trans (.of_push rfl h)

theorem Adds.draw (added : p.Adds P q) (drawing : Canvas → Canvas) : p.Adds P (q.draw drawing) := added

theorem Adds.isHandled (added : p.Adds P q) (other : ∀ e, P e → ¬e.IsUnhandled) (h : p.IsHandled) : q.IsHandled := by
  obtain ⟨more, events, holds⟩ := added
  rw [IsHandled, events]
  exact Event.allHandled_append h fun e mem => other e (holds e mem)

/-- Reports that a filter drops leave no trace behind it. -/
theorem Adds.filter_eq (added : p.Adds P q) {f : Event → Bool} (drops : ∀ e, P e → f e = false) :
    q.events.toList.filter f = p.events.toList.filter f := by
  obtain ⟨more, events, holds⟩ := added
  have dropped : more.filter f = [] := by
    rw [List.filter_eq_nil_iff]
    exact fun e mem => Bool.eq_false_iff.1 (drops e (holds e mem))
  rw [events, List.filter_append, dropped, List.append_nil]

theorem isHandled_log {e : Event} (other : ¬e.IsUnhandled) (h : p.IsHandled) : (p.log e).IsHandled :=
  (Adds.of_push (P := (¬·.IsUnhandled)) rfl other).isHandled (fun _ => id) h

theorem adds_logDropped (h : P .clipOverflow) (p : Pass) (dropped : Nat) : p.Adds P (p.logDropped dropped) :=
  logDropped_induction (P := p.Adds P) (fun _ added => added.log h) (.of_eq rfl) dropped

theorem events_punchOccluder (v : Visit) (s : Scene) :
    (v.pass.punchOccluder s v.record).events = v.pass.events ∨
      (v.pass.punchOccluder s v.record).events = v.pass.events.push (.occlusionFull v.sprite) := by
  rw [punchOccluder_eq]
  obtain ⟨attempt, tried⟩ : ∃ a, v.attempt s = a := ⟨_, rfl⟩
  rw [tried]
  split
  · by_cases full : attempt.1 = .full
    · exact .inr (if_pos full)
    · exact .inl (if_neg full)
  · exact .inl rfl

theorem adds_drawPrimitive (p : Pass) (s : Scene) (r : Record) (kind : PrimitiveKind) :
    p.Adds Event.IsDetail (p.drawPrimitive s r kind) := by
  cases kind with
  | flat | affine =>
    rw [drawPrimitive]
    exact (Adds.of_eq rfl).draw _
  | clippedFlat =>
    rw [drawPrimitive]
    exact ((adds_logDropped trivial p _).log trivial).draw _
  | clippedAffine =>
    rw [drawPrimitive]
    exact (adds_logDropped trivial p _).draw _
  | staticTextured | clippedStaticTextured => exact .of_push rfl trivial
  | occluder =>
    rw [drawPrimitive]
    rcases events_punchOccluder ⟨r, p⟩ s with same | pushed
    · exact .of_eq same
    · exact .of_push pushed trivial

/-- A record is reported first, as what it is or as skipped, and then what drawing it leads to. -/
theorem adds_drawRecord (p : Pass) (s : Scene) (r : Record) :
    (p.log (r.heading p.machine)).Adds Event.IsDetail (p.drawRecord s r) := by
  cases h : PrimitiveKind.ofTag (r.tag p.machine) with
  | ok kind =>
    rw [drawRecord_of_kind h, Record.heading, h]
    exact adds_drawPrimitive _ s r kind
  | error e =>
    rw [drawRecord_of_error h, Record.heading, h]
    exact .of_eq rfl

theorem isHandled_drawRecord (h : p.IsHandled) (s : Scene) (r : Record) : (p.drawRecord s r).IsHandled := by
  refine (adds_drawRecord p s r).isHandled (fun e detail => ?_) (isHandled_log (r.heading_isHandled _) h)
  cases e <;> first | exact id | exact detail.elim

theorem isHandled_walk (h : p.IsHandled) (s : Scene) (n : Nat) (r : Record) : (walk s n r p).1.IsHandled :=
  walk_induction (P := IsHandled) (fun _ => isHandled_log id) (fun _ r h => isHandled_drawRecord h s r) n r h

end Pass

end Drome

end Redraw

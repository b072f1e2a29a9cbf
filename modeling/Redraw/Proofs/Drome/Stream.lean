import Redraw.Proofs.Drome.Verdicts

/-!
# The records of a stream

Every record is read from the machine that the records before it leave behind, so the stream is the sequence of visits of
a walk, not a list in memory (`Visit.later`). The rasterizer draws the visits before the first terminator, 4096 of them
at most, and reports a stream that goes on after that (`walk_later`). All of them are in one bank, and records that draw
nothing can be left out (`alike_drawRecords`). The main statement (`rasterize_walks_stream`) puts these together.
-/

namespace Redraw.Drome

/-! ## Tags -/

namespace PrimitiveKind

theorem ofTag_of_lt {tag : UInt8} (unknown : 7 < tag) : ofTag tag = .error (.unknownPrimitive tag) := by
  unfold ofTag
  split <;> first | rfl | exact absurd unknown (by decide)

theorem exists_ofTag {tag : UInt8} (some_record : tag ≠ 0) (known : ¬7 < tag) : ∃ kind, ofTag tag = .ok kind := by
  unfold ofTag
  split
  case h_8 =>
    refine absurd ?_ known
    simp only [UInt8.lt_iff_toNat_lt, ← UInt8.toNat_inj, imp_false, ne_eq, UInt8.reduceToNat] at *
    omega
  all_goals exact ⟨_, rfl⟩

end PrimitiveKind

namespace Record

/-- The 64 KiB bank that the record is in. -/
def bank (r : Record) : Nat := r.address.toNat / 0x10000

theorem bank_next (r : Record) (m : Machine) : (r.next m).bank = r.bank := by
  have offset : (m.readHalf (r.address + 2)).toUInt32.toNat >>> 16 = 0 := by
    rw [UInt16.toNat_toUInt32, Nat.shiftRight_eq_div_pow]
    exact Nat.div_eq_of_lt (UInt16.toNat_lt _)
  have upper : r.address.toNat >>> 16 < 2 ^ 16 := by
    have := r.address.toNat_lt
    rw [Nat.shiftRight_eq_div_pow]
    omega
  have mask : (0xFFFF0000 : UInt32).toNat >>> 16 = 2 ^ 16 - 1 := by decide
  calc (r.next m).bank
    _ = (r.next m).address.toNat >>> 16 := (Nat.shiftRight_eq_div_pow _ 16).symm
    _ = r.address.toNat >>> 16 &&& (2 ^ 16 - 1) := by
      rw [next, UInt32.toNat_or, UInt32.toNat_and, Nat.shiftRight_or_distrib, Nat.shiftRight_and_distrib, offset, mask,
        Nat.or_zero]
    _ = r.address.toNat >>> 16 := by rw [Nat.and_two_pow_sub_one_eq_mod, Nat.mod_eq_of_lt upper]
    _ = r.bank := Nat.shiftRight_eq_div_pow _ 16

end Record

/-! ## Passes that differ in their reports only -/

namespace Pass

/-- The passes differ at most in what they reported. -/
structure Alike (p q : Pass) : Prop where
  canvas : q.canvas = p.canvas
  holes : q.holes = p.holes
  machine : q.machine = p.machine

namespace Alike

variable {p q p' : Pass} {s : Scene}

theorem refl (p : Pass) : p.Alike p := ⟨rfl, rfl, rfl⟩

theorem symm (same : p.Alike q) : q.Alike p := ⟨same.canvas.symm, same.holes.symm, same.machine.symm⟩

theorem trans (first : p.Alike q) (second : q.Alike p') : p.Alike p' :=
  ⟨second.canvas.trans first.canvas, second.holes.trans first.holes, second.machine.trans first.machine⟩

theorem log (p : Pass) (e : Event) : p.Alike (p.log e) := ⟨rfl, rfl, rfl⟩

theorem punchOccluder (same : p.Alike q) (r : Record) : (p.punchOccluder s r).Alike (q.punchOccluder s r) := by
  have sprite : (⟨r, q⟩ : Visit).sprite = (⟨r, p⟩ : Visit).sprite := congrArg r.spriteIndex same.machine
  have position : (⟨r, q⟩ : Visit).position s = (⟨r, p⟩ : Visit).position s := by
    unfold Visit.position
    rw [sprite, same.machine]
  have attempt : (⟨r, q⟩ : Visit).attempt s = (⟨r, p⟩ : Visit).attempt s := by
    unfold Visit.attempt Visit.outputPosition
    rw [position, sprite, same.canvas, same.holes]
  rw [punchOccluder_eq ⟨r, p⟩ s, punchOccluder_eq ⟨r, q⟩ s, position, attempt, sprite, same.machine]
  split
  · exact ⟨rfl, rfl, rfl⟩
  · exact ⟨same.canvas, same.holes, rfl⟩

theorem drawPrimitive (same : p.Alike q) (r : Record) (kind : PrimitiveKind) :
    (p.drawPrimitive s r kind).Alike (q.drawPrimitive s r kind) := by
  by_cases occluder : kind = .occluder
  · rw [occluder, Pass.drawPrimitive, Pass.drawPrimitive]
    exact same.punchOccluder r
  · obtain ⟨machine, holes, -⟩ := drawPrimitive_of_ne occluder p s r
    obtain ⟨machine', holes', -⟩ := drawPrimitive_of_ne occluder q s r
    exact ⟨canvas_drawPrimitive_congr occluder same.canvas same.machine s r, by rw [holes, holes', same.holes],
      by rw [machine, machine', same.machine]⟩

theorem drawRecord (same : p.Alike q) (r : Record) : (p.drawRecord s r).Alike (q.drawRecord s r) := by
  have logged (e : Event) : (p.log e).Alike (q.log e) := (log p e).symm.trans (same.trans (log q e))
  have tag : r.tag q.machine = r.tag p.machine := by rw [same.machine]
  cases h : PrimitiveKind.ofTag (r.tag p.machine) with
  | ok kind =>
    rw [drawRecord_of_kind h, drawRecord_of_kind (tag ▸ h)]
    exact (logged _).drawPrimitive r kind
  | error e =>
    rw [drawRecord_of_error h, drawRecord_of_error (tag ▸ h)]
    exact logged _

theorem finish (same : p.Alike q) (policy : Policy) (s : Scene) :
    (Drome.finish policy s p).Alike (Drome.finish policy s q) := by
  obtain ⟨_, _, _, events⟩ := p
  obtain ⟨c, h, m, events'⟩ := q
  obtain ⟨rfl, rfl, rfl⟩ := same
  exact ⟨rfl, rfl, rfl⟩

end Alike

/-- Draws records one after the other, wherever they are. -/
def drawRecords (s : Scene) (p : Pass) (records : List Record) : Pass := records.foldl (·.drawRecord s ·) p

end Pass

/-! ## Visits in a row -/

namespace Visit

def tag (v : Visit) : UInt8 := v.record.tag v.pass.machine

/-- The record has an effect beyond reports. -/
def Draws (v : Visit) : Prop := v.tag = 1 ∨ v.tag = 3 ∨ v.tag = 4 ∨ v.tag = 6 ∨ v.tag = 7

instance (v : Visit) : Decidable v.Draws := inferInstanceAs (Decidable (_ ∨ _))

def next (v : Visit) (s : Scene) : Visit :=
  let drawn := v.pass.drawRecord s v.record
  ⟨v.record.next drawn.machine, drawn⟩

/-- The visit that is `k` records later. -/
def later (v : Visit) (s : Scene) : Nat → Visit
  | 0 => v
  | k + 1 => (v.next s).later s k

/-- The first `n` visits from this one on. -/
def run (v : Visit) (s : Scene) (n : Nat) : List Visit := (List.range n).map (v.later s)

variable {v : Visit} {s : Scene}

theorem later_succ (v : Visit) (s : Scene) (k : Nat) : v.later s (k + 1) = (v.later s k).next s := by
  induction k generalizing v with
  | zero => rfl
  | succ k ih => exact ih (v.next s)

theorem run_succ (v : Visit) (s : Scene) (n : Nat) : v.run s (n + 1) = v.run s n ++ [v.later s n] := by
  rw [run, List.range_succ, List.map_append]
  rfl

theorem bank_later (v : Visit) (s : Scene) (k : Nat) : (v.later s k).record.bank = v.record.bank := by
  induction k with
  | zero => rfl
  | succ k ih =>
    rw [later_succ, ← ih]
    exact Record.bank_next ..

theorem draws_of_kind {kind : PrimitiveKind} (h : PrimitiveKind.ofTag v.tag = .ok kind) :
    v.Draws ∨ kind = .staticTextured ∨ kind = .clippedStaticTextured := by
  unfold Draws
  generalize v.tag = tag at h ⊢
  unfold PrimitiveKind.ofTag at h
  split at h <;> simp_all

theorem alike_next (quiet : ¬v.Draws) (s : Scene) : v.pass.Alike (v.next s).pass := by
  change v.pass.Alike (v.pass.drawRecord s v.record)
  cases h : PrimitiveKind.ofTag (v.record.tag v.pass.machine) with
  | ok kind =>
    rw [Pass.drawRecord_of_kind h]
    rcases draws_of_kind h with draws | rfl | rfl
    · exact absurd draws quiet
    · exact ⟨rfl, rfl, rfl⟩
    · exact ⟨rfl, rfl, rfl⟩
  | error e =>
    rw [Pass.drawRecord_of_error h]
    exact .log v.pass _

/-- The records that only report can be left out. -/
theorem alike_drawRecords (v : Visit) (s : Scene) (n : Nat) :
    (v.later s n).pass.Alike (v.pass.drawRecords s (((v.run s n).filter (·.Draws)).map (·.record))) := by
  -- From the end of the run: the last record is drawn on both sides, or it only reports and is left out on one of them.
  induction n with
  | zero => exact .refl v.pass
  | succ n ih =>
    rw [run_succ, later_succ, List.filter_append, List.map_append, Pass.drawRecords, List.foldl_append]
    by_cases draws : (v.later s n).Draws
    · rw [List.filter_cons, if_pos (decide_eq_true draws)]
      exact ih.drawRecord _
    · rw [List.filter_cons, if_neg fun marked => draws (of_decide_eq_true marked)]
      exact (alike_next draws s).symm.trans ih

/-! ### Reports -/

def heading (v : Visit) : Event := v.record.heading v.pass.machine

theorem heading_of_lt (unknown : 7 < v.tag) :
    v.heading = .primitiveSkipped (.unknownPrimitive v.tag) v.record.address := by
  rw [heading, Record.heading, ← tag, PrimitiveKind.ofTag_of_lt unknown]

theorem exists_heading (more : v.tag ≠ 0) (known : ¬7 < v.tag) : ∃ kind, v.heading = .primitive kind v.record.address := by
  obtain ⟨kind, h⟩ := PrimitiveKind.exists_ofTag more known
  exact ⟨kind, by rw [heading, Record.heading, ← tag, h]⟩

theorem filter_events_later {f : Event → Bool} (drops : ∀ e : Event, e.IsDetail → f e = false) (v : Visit) (s : Scene)
    (n : Nat) :
    (v.later s n).pass.events.toList.filter f = v.pass.events.toList.filter f ++ ((v.run s n).map heading).filter f := by
  induction n with
  | zero => exact (List.append_nil _).symm
  | succ n ih =>
    rw [later_succ, run_succ, List.map_append, List.filter_append, ← List.append_assoc, ← ih, next,
      (Pass.adds_drawRecord _ s _).filter_eq drops, Pass.log, Array.toList_push, List.filter_append]
    rfl

theorem message_heading (v : Visit) : v.heading.message = "primitive" ∨ v.heading.message = "primitive skipped" := by
  unfold heading Record.heading
  split
  · exact .inl rfl
  · exact .inr rfl

theorem filter_heading {visits : List Visit} (more : ∀ v ∈ visits, v.tag ≠ 0) :
    (visits.map heading).filter (·.message = "primitive skipped") =
      (visits.filter (7 < ·.tag)).map fun v => .primitiveSkipped (.unknownPrimitive v.tag) v.record.address := by
  have skipped (v : Visit) (mem : v ∈ visits) : v.heading.message = "primitive skipped" ↔ 7 < v.tag := by
    by_cases unknown : 7 < v.tag
    · simp [heading_of_lt unknown, unknown, Event.message]
    · obtain ⟨kind, heading⟩ := exists_heading (more v mem) unknown
      simp [heading, unknown, Event.message]
  have same : visits.filter ((fun e : Event => decide (e.message = "primitive skipped")) ∘ heading) =
      visits.filter (7 < ·.tag) := List.filter_congr fun v mem => decide_eq_decide.2 (skipped v mem)
  rw [List.filter_map, same]
  exact List.map_congr_left fun v mem => heading_of_lt (of_decide_eq_true (List.mem_filter.1 mem).2)

section Silent

variable (silent : v.pass.events = #[])
include silent

theorem filter_skipped_later {n : Nat} (more : ∀ k < n, (v.later s k).tag ≠ 0) :
    (v.later s n).pass.events.toList.filter (·.message = "primitive skipped") =
      ((v.run s n).filter (7 < ·.tag)).map fun v => .primitiveSkipped (.unknownPrimitive v.tag) v.record.address := by
  have more' : ∀ u ∈ v.run s n, u.tag ≠ 0 := by
    intro u mem
    obtain ⟨k, range, rfl⟩ := List.mem_map.1 mem
    exact more k (List.mem_range.1 range)
  have drops (e : Event) (detail : e.IsDetail) : decide (e.message = "primitive skipped") = false := by
    cases e <;> first | rfl | exact detail.elim
  rw [filter_events_later drops, silent, filter_heading more']
  rfl

theorem filter_endless_later (s : Scene) (n : Nat) :
    (v.later s n).pass.events.toList.filter (·.message = "primitive stream does not terminate") = [] := by
  have drops (e : Event) (detail : e.IsDetail) : decide (e.message = "primitive stream does not terminate") = false := by
    cases e <;> first | rfl | exact detail.elim
  rw [filter_events_later drops, silent, List.filter_eq_nil_iff.2 (nofun : ∀ e ∈ (#[] : Array Event).toList, _),
    List.nil_append, List.filter_eq_nil_iff]
  intro e mem
  obtain ⟨u, -, rfl⟩ := List.mem_map.1 mem
  rcases u.message_heading with message | message <;> simp [message]

end Silent

end Visit

/-! ## Walks -/

/-- A walk meets the records before the first terminator, `n` of them at most, and reports a record that is left over. -/
theorem Pass.walk_later (n : Nat) (r : Record) (p : Pass) (s : Scene) :
    let count := (walk s n r p).2
    let last := (⟨r, p⟩ : Visit).later s count
    count ≤ n ∧ (∀ k < count, ((⟨r, p⟩ : Visit).later s k).tag ≠ 0) ∧ (count < n → last.tag = 0) ∧
      (walk s n r p).1 = if last.tag = 0 then last.pass else last.pass.log (.endlessStream s.stream) := by
  -- On the bound, from the front as the walk goes: what is left of the walk after a record starts at the next visit.
  induction n generalizing r p with
  | zero =>
    by_cases stop : r.tag p.machine = 0
    · rw [walk_of_end stop]
      exact ⟨Nat.le_refl _, nofun, nofun, (if_pos stop).symm⟩
    · rw [walk_zero stop]
      exact ⟨Nat.le_refl _, nofun, nofun, (if_neg stop).symm⟩
  | succ n ih =>
    by_cases stop : r.tag p.machine = 0
    · rw [walk_of_end stop]
      exact ⟨Nat.zero_le _, nofun, fun _ => stop, (if_pos stop).symm⟩
    · obtain ⟨le, more, terminated, left⟩ := ih (r.next (p.drawRecord s r).machine) (p.drawRecord s r)
      rw [walk_succ stop, count_succ stop]
      refine ⟨Nat.succ_le_succ le, fun k lt => ?_, fun lt => terminated (Nat.lt_of_succ_lt_succ lt), left⟩
      cases k with
      | zero => exact stop
      | succ k => exact more k (Nat.lt_of_succ_lt_succ lt)

/-- What is reported at the end of a walk over `n` records that stopped at the visit `last`. -/
def closing (s : Scene) (n : Nat) (last : Visit) : List Event :=
  (if last.tag = 0 then [] else [.endlessStream s.stream]) ++ [.rasterized n s.frame last.pass.holes.size]

theorem pass_walks (policy : Policy) (s : Scene) (c : Canvas) (holes : Holes) (m : Machine) :
    let first : Visit := ⟨⟨s.stream⟩, c, holes, m, #[]⟩
    ∃ n ≤ Pass.maxRecords, (∀ k < n, (first.later s k).tag ≠ 0) ∧
      (n < Pass.maxRecords → (first.later s n).tag = 0) ∧
      (finish policy s (first.later s n).pass).Alike (pass policy s c holes m) ∧
      (pass policy s c holes m).events.toList =
        (first.later s n).pass.events.toList ++ closing s n (first.later s n) := by
  intro first
  have eq := pass_eq policy s c holes m
  obtain ⟨le, more, terminated, left⟩ := Pass.walk_later Pass.maxRecords ⟨s.stream⟩ ⟨c, holes, m, #[]⟩ s
  obtain ⟨⟨p, n⟩, walked⟩ : ∃ left, Pass.walk s Pass.maxRecords ⟨s.stream⟩ ⟨c, holes, m, #[]⟩ = left := ⟨_, rfl⟩
  rw [walked] at eq le more terminated left
  dsimp only at eq le more terminated left
  refine ⟨n, le, more, terminated, ?_⟩
  rw [eq, (finish_spec ..).2.2.2, left, closing]
  by_cases stop : (first.later s n).tag = 0
  · rw [if_pos stop, if_pos stop, List.nil_append, ← Array.toList_push]
    exact ⟨(Pass.Alike.log _ _).finish policy s, rfl⟩
  · rw [if_neg stop, if_neg stop, ← List.append_assoc, ← Array.toList_push, ← Array.toList_push]
    exact ⟨((Pass.Alike.log _ _).trans (.log _ _)).finish policy s, rfl⟩

/-! ## The rasterizer -/

/-- The outcome is what a pass left. -/
structure Outcome.Shows (o : Outcome) (s : Scene) (p : Pass) : Prop where
  holes : o.holes = p.holes
  machine : o.machine = p.machine
  pixels : (o.context.frames.get s.frame).indexed = p.canvas.pixels

theorem Outcome.Shows.of_alike {o : Outcome} {s : Scene} {p q : Pass} (shows : o.Shows s q) (same : p.Alike q) :
    o.Shows s p :=
  ⟨shows.holes.trans same.holes, shows.machine.trans same.machine,
    shows.pixels.trans (congrArg Canvas.pixels same.canvas)⟩

/-- **The walk over a stream.** The rasterizer returns. All records that it meets are in the bank that the stream begins in.
It draws those before the first terminator, 4096 of them at most, and warns about the stream exactly when a record is left
over then. Records that are no triangle to fill and no occluder only report, each of an unknown kind once, so what the
rasterizer leaves is what drawing the other ones leaves. -/
theorem rasterize_walks_stream {e : Drome} {a : Active} (active : e.active = some a) {c : Context}
    (sized : c.frames.Sized) {m : Machine} (stage : m.readWord a.profile.stage = a.profile.rasterize) :
    let s := Scene.read m (m.register 0)
    let first : Visit := ⟨⟨s.stream⟩, Canvas.blank c.frames.scale, e.holes, m, #[]⟩
    (∀ k, (first.later s k).record.bank = (⟨s.stream⟩ : Record).bank) ∧
      (∀ k, ¬(first.later s k).Draws → (first.later s k).pass.Alike (first.later s (k + 1)).pass) ∧
      ∃ n ≤ Pass.maxRecords, (∀ k < n, (first.later s k).tag ≠ 0) ∧
        (n < Pass.maxRecords → (first.later s n).tag = 0) ∧
        Returns (e.hook c m a.profile.trampoline) fun o =>
          let visits := first.run s n
          o.Shows s (finish a.policy s (first.later s n).pass) ∧
          o.Shows s (finish a.policy s (first.pass.drawRecords s ((visits.filter (·.Draws)).map (·.record)))) ∧
          .rasterized n s.frame (first.later s n).pass.holes.size ∈ o.events ∧
          o.events.filter (·.message = "primitive stream does not terminate") =
            (if n = Pass.maxRecords ∧ (first.later s n).tag ≠ 0 then [.endlessStream s.stream] else []) ∧
          o.events.filter (·.message = "primitive skipped") =
            (visits.filter (7 < ·.tag)).map fun v => .primitiveSkipped (.unknownPrimitive v.tag) v.record.address := by
  intro s first
  obtain ⟨n, le, more, terminated, same, events⟩ :=
    pass_walks a.policy s (Canvas.blank c.frames.scale) e.holes m
  refine ⟨fun k => first.bank_later s k, fun k quiet => ?_, n, le, more, terminated, ?_⟩
  · rw [Visit.later_succ]
    exact Visit.alike_next quiet s
  rw [hook_of_rasterize active stage]
  refine (rasterize_returns sized a.policy e.holes m).mono fun o left => ?_
  obtain ⟨holes, machine, reports, -, pixels⟩ := left
  have shows : o.Shows s (finish a.policy s (first.later s n).pass) := .of_alike ⟨holes, machine, pixels⟩ same
  rw [reports, events]
  refine ⟨shows, shows.of_alike ((Visit.alike_drawRecords first s n).symm.finish a.policy s), ?_, ?_, ?_⟩
  · exact List.mem_append_right _ (List.mem_append_right _ List.mem_cons_self)
  · rw [List.filter_append, Visit.filter_endless_later rfl, List.nil_append, closing]
    by_cases stop : (first.later s n).tag = 0
    · rw [if_pos stop, if_neg fun left_over => left_over.2 stop]
      rfl
    · have full : n = Pass.maxRecords := Nat.le_antisymm le (Nat.le_of_not_lt fun lt => stop (terminated lt))
      rw [if_neg stop, if_pos ⟨full, stop⟩]
      rfl
  · rw [List.filter_append, Visit.filter_skipped_later rfl more, closing]
    refine (congrArg (_ ++ ·) ?_).trans (List.append_nil _)
    split <;> rfl

namespace Single

theorem tag_later :
    ((⟨⟨scene.stream⟩, start⟩ : Visit).later scene 0).tag ≠ 0 ∧
      ((⟨⟨scene.stream⟩, start⟩ : Visit).later scene 1).tag = 0 := by
  refine ⟨more, ?_⟩
  change ((⟨scene.stream⟩ : Record).next (start.drawRecord scene ⟨scene.stream⟩).machine).tag _ = 0
  rw [next_eq]
  exact stop

theorem size_holes : ((⟨⟨scene.stream⟩, start⟩ : Visit).later scene 1).pass.holes.size = 1 := by
  have holes := (Pass.drawRecord_spec start scene ⟨scene.stream⟩).1
  rw [met_eq, opened_singleton, if_pos punches] at holes
  exact (Bounded.length_toList _).symm.trans (congrArg List.length holes)

end Single

/-- The stream of `Single` is one occluder, which opens a hole. -/
theorem rasterize_walks_stream_single :
    let c := Context.blank 1
    let a : Active := ⟨racers, defaultPolicy⟩
    Single.engine.active = some a ∧ c.frames.Sized ∧
      Single.machine.readWord a.profile.stage = a.profile.rasterize ∧
      Returns (Single.engine.hook c Single.machine a.profile.trampoline) fun o =>
        .rasterized 1 Single.scene.frame 1 ∈ o.events ∧
          o.events.filter (·.message = "primitive stream does not terminate") = [] ∧
          o.events.filter (·.message = "primitive skipped") = [] := by
  intro c a
  have sized : c.frames.Sized := Frames.sized_blank 1
  refine ⟨rfl, sized, Single.stage, ?_⟩
  obtain ⟨-, -, n, -, more, terminated, left⟩ :=
    rasterize_walks_stream (e := Single.engine) (a := a) rfl sized Single.stage
  rw [show Scene.read Single.machine (Single.machine.register 0) = Single.scene from rfl,
    show c.frames.scale = 1 from rfl,
    show (⟨Canvas.blank 1, Single.engine.holes, Single.machine, #[]⟩ : Pass) = Single.start from rfl]
    at more terminated left
  obtain ⟨some_record, stop⟩ := Single.tag_later
  obtain rfl : n = 1 := by
    refine Nat.le_antisymm (Nat.le_of_not_lt fun lt => more 1 lt stop) (Nat.pos_of_ne_zero ?_)
    rintro rfl
    exact some_record (terminated (by decide))
  refine left.mono fun o ⟨_, _, counted, endless, skipped⟩ => ⟨?_, ?_, ?_⟩
  · rwa [Single.size_holes] at counted
  · exact endless.trans (if_neg fun left_over => left_over.2 stop)
  · refine skipped.trans (List.map_eq_nil_iff.2 (List.filter_eq_nil_iff.2 fun v mem => ?_))
    obtain rfl : v = ⟨⟨Single.scene.stream⟩, Single.start⟩ := List.mem_singleton.1 mem
    have known : ¬7 < (⟨Single.scene.stream⟩ : Record).tag Single.start.machine := by
      rw [Single.scene_eq]
      decide
    exact fun unknown => known (of_decide_eq_true unknown)

end Redraw.Drome

import Redraw.Proofs.Drome.Verdicts

/-!
# Nothing is left over from the frame before

The rasterizer clears the frame that it draws, and no hole stays open from one call to the next, so what it leaves is told
by the machine, the scale and the queue of outlines (`frame_depends_on_machine`). Stacks of holes with the same view may
still differ in the slots above their size. Passes that agree but for such slots and their reports stay so.
-/

namespace Redraw.Drome

namespace Pass

/-- The passes differ at most in what they reported and in slots for holes that are not open. -/
structure Mirrors (p q : Pass) : Prop where
  canvas : q.canvas = p.canvas
  holes : q.holes.toList = p.holes.toList
  machine : q.machine = p.machine

namespace Mirrors

variable {p q : Pass} {s : Scene}

theorem log (same : p.Mirrors q) (e e' : Event) : (p.log e).Mirrors (q.log e') :=
  ⟨same.canvas, same.holes, same.machine⟩

theorem sprite (same : p.Mirrors q) (r : Record) : (⟨r, q⟩ : Visit).sprite = (⟨r, p⟩ : Visit).sprite :=
  congrArg r.spriteIndex same.machine

theorem position (same : p.Mirrors q) (r : Record) :
    (⟨r, q⟩ : Visit).position s = (⟨r, p⟩ : Visit).position s ∧
      (⟨r, q⟩ : Visit).outputPosition s = (⟨r, p⟩ : Visit).outputPosition s := by
  have position : (⟨r, q⟩ : Visit).position s = (⟨r, p⟩ : Visit).position s := by
    unfold Visit.position
    rw [same.sprite, same.machine]
  refine ⟨position, ?_⟩
  unfold Visit.outputPosition
  rw [position, same.canvas]

theorem hole (same : p.Mirrors q) (r : Record) : (⟨r, q⟩ : Visit).hole s = (⟨r, p⟩ : Visit).hole s := by
  unfold Visit.hole
  rw [(same.position r).2, same.sprite, same.canvas]

theorem punches (same : p.Mirrors q) (r : Record) : (⟨r, q⟩ : Visit).Punches s ↔ (⟨r, p⟩ : Visit).Punches s := by
  have size : q.holes.size = p.holes.size := by
    rw [← Bounded.length_toList, same.holes, Bounded.length_toList]
  unfold Visit.Punches
  rw [(same.position r).1, (same.position r).2, same.canvas, size]

theorem punchOccluder (same : p.Mirrors q) (r : Record) : (p.punchOccluder s r).Mirrors (q.punchOccluder s r) := by
  rcases punchOccluder_cases ⟨r, p⟩ s with ⟨opens, holes, canvas, machine⟩ | ⟨refused, holes, canvas, machine⟩
  · rcases punchOccluder_cases ⟨r, q⟩ s with ⟨-, holes', canvas', machine'⟩ | ⟨refused', -⟩
    · refine ⟨?_, ?_, ?_⟩
      · rw [canvas, canvas', same.hole, same.canvas]
      · rw [holes, holes', same.hole, same.holes]
      · rw [machine, machine', same.hole, same.sprite, same.machine]
    · exact absurd ((same.punches r).2 opens) refused'
  · rcases punchOccluder_cases ⟨r, q⟩ s with ⟨opens', -⟩ | ⟨-, holes', canvas', machine'⟩
    · exact absurd ((same.punches r).1 opens') refused
    · refine ⟨?_, ?_, ?_⟩
      · rw [canvas, canvas', same.canvas]
      · rw [holes, holes', same.holes]
      · rw [machine, machine', same.sprite, same.machine]

theorem drawPrimitive (same : p.Mirrors q) (r : Record) (kind : PrimitiveKind) :
    (p.drawPrimitive s r kind).Mirrors (q.drawPrimitive s r kind) := by
  by_cases occluder : kind = .occluder
  · rw [occluder, Pass.drawPrimitive, Pass.drawPrimitive]
    exact same.punchOccluder r
  · obtain ⟨machine, holes, -⟩ := drawPrimitive_of_ne occluder p s r
    obtain ⟨machine', holes', -⟩ := drawPrimitive_of_ne occluder q s r
    exact ⟨canvas_drawPrimitive_congr occluder same.canvas same.machine s r, by rw [holes, holes', same.holes],
      by rw [machine, machine', same.machine]⟩

theorem drawRecord (same : p.Mirrors q) (r : Record) : (p.drawRecord s r).Mirrors (q.drawRecord s r) := by
  have tag : r.tag q.machine = r.tag p.machine := by rw [same.machine]
  cases h : PrimitiveKind.ofTag (r.tag p.machine) with
  | ok kind =>
    rw [drawRecord_of_kind h, drawRecord_of_kind (tag ▸ h)]
    exact (same.log _ _).drawPrimitive r kind
  | error e =>
    rw [drawRecord_of_error h, drawRecord_of_error (tag ▸ h)]
    exact same.log _ _

/-- Both walks read the same records, because the machine is the same one after every record. -/
theorem walk (same : p.Mirrors q) (n : Nat) (r : Record) : (Pass.walk s n r p).1.Mirrors (Pass.walk s n r q).1 := by
  have tag {p q : Pass} (same : p.Mirrors q) (r : Record) : r.tag q.machine = r.tag p.machine := by rw [same.machine]
  induction n generalizing r p q with
  | zero =>
    by_cases stop : r.tag p.machine = 0
    · rwa [walk_of_end stop, walk_of_end ((tag same r).trans stop)]
    · rw [walk_zero stop, walk_zero (tag same r ▸ stop)]
      exact same.log _ _
  | succ n ih =>
    by_cases stop : r.tag p.machine = 0
    · rwa [walk_of_end stop, walk_of_end ((tag same r).trans stop)]
    · have drawn := same.drawRecord (s := s) r
      rw [walk_succ stop, walk_succ (tag same r ▸ stop), drawn.machine]
      exact ih drawn _

/-- Filling the holes in looks at the open ones only. -/
theorem finish (same : p.Mirrors q) (policy : Policy) (s : Scene) :
    (Drome.finish policy s p).Mirrors (Drome.finish policy s q) := by
  obtain ⟨canvas, holes, machine, -⟩ := finish_spec policy s p
  obtain ⟨canvas', holes', machine', -⟩ := finish_spec policy s q
  refine ⟨?_, ?_, ?_⟩
  · rw [canvas, canvas', same.canvas, same.holes]
  · rw [holes, holes']
  · rw [machine, machine', same.canvas, same.holes, same.machine]

theorem buffer (same : p.Mirrors q) (outlines : List Outline) (active : Bool) :
    q.buffer outlines active = p.buffer outlines active := by
  unfold Pass.buffer
  rw [same.canvas, same.machine]

end Mirrors

end Pass

theorem pass_mirrors {holes holes' : Holes} (same : holes'.toList = holes.toList) (policy : Policy) (s : Scene)
    (c : Canvas) (m : Machine) : (pass policy s c holes m).Mirrors (pass policy s c holes' m) := by
  have start : Pass.Mirrors ⟨c, holes, m, #[]⟩ ⟨c, holes', m, #[]⟩ := ⟨rfl, same, rfl⟩
  rw [pass_eq, pass_eq]
  exact ((start.walk _ _).log _ _).finish policy s

/-- **A frame depends on the machine.** Take two runs of the engine that draw the same title with the same policy, on frames
of one scale and with the same outlines queued, whatever the frames hold. A hit that rasterizes leaves the same machine in
both runs, and the same indices, colors and flag of the frame that is drawn. The flag says whether the stream has a first
record. The other frame keeps what it had in each run. -/
theorem frame_depends_on_machine {e e' : Drome} (reachable : Reachable e) (reachable' : Reachable e') {a : Active}
    (active : e.active = some a) (active' : e'.active = some a) {c c' : Context} (sized : c.frames.Sized)
    (sized' : c'.frames.Sized) (scale : c'.frames.scale = c.frames.scale) (outlines : c'.outlines = c.outlines)
    {m : Machine} (stage : m.readWord a.profile.stage = a.profile.rasterize) :
    let s := Scene.read m (m.register 0)
    Returns (e.hook c m a.profile.trampoline) fun o => Returns (e'.hook c' m a.profile.trampoline) fun o' =>
      o'.machine = o.machine ∧ o'.context.frames.get s.frame = o.context.frames.get s.frame ∧
      (o.context.frames.isActive s.frame = true ↔ (⟨s.stream⟩ : Record).tag m ≠ 0) ∧
      ∀ i, i ≠ s.frame → o.context.frames.get i = c.frames.get i ∧ o'.context.frames.get i = c'.frames.get i := by
  intro s
  have closed : e'.holes.toList = e.holes.toList := reachable'.closed.trans reachable.closed.symm
  have mirrors := pass_mirrors closed a.policy s (Canvas.blank c.frames.scale) m
  have left := rasterize_eq sized a.policy e.holes m
  have right := rasterize_eq sized' a.policy e'.holes m
  rw [scale, outlines] at right
  dsimp only at left right
  -- From here on only the relation between the two passes matters, not how they ran.
  generalize pass a.policy s (Canvas.blank c.frames.scale) e.holes m = p at left mirrors
  generalize pass a.policy s (Canvas.blank c.frames.scale) e'.holes m = q at right mirrors
  rw [hook_of_rasterize active stage, hook_of_rasterize active' stage]
  refine ⟨_, left, _, right, mirrors.machine, ?_, ?_, fun i other => ?_⟩
  · dsimp only
    rw [Frames.get_modify, Frames.get_modify, if_pos rfl, if_pos rfl, mirrors.buffer]
  · dsimp only
    rw [Frames.isActive, Frames.get_modify, if_pos rfl]
    exact bne_iff_ne
  · dsimp only
    rw [Frames.get_modify, Frames.get_modify, if_neg other.symm, if_neg other.symm]
    exact ⟨rfl, rfl⟩

/-- The scene of `Single` is drawn a second time on what the first time left, stale slots of holes included: that changes
nothing. -/
theorem frame_depends_on_machine_again :
    let c := Context.blank 1
    let a : Active := ⟨racers, defaultPolicy⟩
    Reachable Single.engine ∧ Single.engine.active = some a ∧ c.frames.Sized ∧
      Single.machine.readWord a.profile.stage = a.profile.rasterize ∧
      Returns (Single.engine.hook c Single.machine a.profile.trampoline) fun o =>
        let again : Drome := { Single.engine with holes := o.holes }
        Reachable again ∧ o.context.frames.Sized ∧ o.context.frames.scale = c.frames.scale ∧
          o.context.outlines = c.outlines ∧
          Returns (again.hook o.context Single.machine a.profile.trampoline) fun o' =>
            o'.machine = o.machine ∧ ∀ i, o'.context.frames.get i = o.context.frames.get i := by
  intro c a
  have sized : c.frames.Sized := Frames.sized_blank 1
  refine ⟨Single.reachable, rfl, sized, Single.stage, ?_⟩
  obtain ⟨o, ran, -, evolved, -⟩ := hook_returns Single.reachable.closed sized Single.machine a.profile.trampoline
  have reachable := Reachable.hook Single.reachable sized ran
  have rasterized := (hook_of_rasterize (a := a) rfl Single.stage c).symm.trans ran
  have outlines : o.context.outlines = [] := ((publishes_rasterize _ _ _ _ o rasterized).shown _ rfl).1
  refine ⟨o, ran, reachable, evolved.frames.sized, evolved.frames.scale, outlines, ?_⟩
  obtain ⟨o₁, ran₁, o', ran', machine, drawn, -, apart⟩ := frame_depends_on_machine Single.reachable reachable (a := a) rfl
    rfl sized evolved.frames.sized evolved.frames.scale outlines Single.stage
  obtain rfl : o₁ = o := Except.ok.inj (ran₁.symm.trans ran)
  refine ⟨o', ran', machine, fun i => ?_⟩
  by_cases same : i = (Scene.read Single.machine (Single.machine.register 0)).frame
  · rw [same, drawn]
  · exact (apart i same).2

end Redraw.Drome

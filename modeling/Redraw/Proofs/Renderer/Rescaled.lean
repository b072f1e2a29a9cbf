import Redraw.Proofs.Renderer.Published

/-!
# Changes of the scale

A change of the scale blanks both frames, but outlines that were queued before it stay queued. So the first commit after it
leaves its frame blank exactly when none of them reaches the screen at the new scale (`blank_after_setScale_iff`).
-/

namespace Redraw

/-! ## Outlines that show -/

namespace Outline

/-- The outline has a size, and meets the screen. -/
def Visible (scale : Nat) (o : Outline) : Prop := 0 ≤ o.width ∧ 0 ≤ o.height ∧ (o.sides scale).meetScreen scale = true

instance (scale : Nat) (o : Outline) : Decidable (o.Visible scale) :=
  inferInstanceAs (Decidable (0 ≤ o.width ∧ 0 ≤ o.height ∧ (o.sides scale).meetScreen scale = true))

variable {o : Outline} {scale : Nat}

theorem points_of_not_visible (hidden : ¬o.Visible scale) : o.points scale = [] := if_neg hidden

/-- The upper left corner of a visible outline, as far as the screen has it, is one of its pixels. -/
theorem meets_of_visible (pos : 0 < scale) (visible : o.Visible scale) :
    ∃ x y, Screen.Contains scale x y ∧ o.Meets scale x y := by
  obtain ⟨width, height, meets⟩ := visible
  have right : o.x * scale ≤ (o.x + o.width) * scale := Int.mul_le_mul_of_nonneg_right (by omega) (Int.natCast_nonneg _)
  have bottom : o.y * scale ≤ (o.y + o.height) * scale := Int.mul_le_mul_of_nonneg_right (by omega) (Int.natCast_nonneg _)
  have columns : 0 < Screen.width * scale := Nat.mul_pos (by decide) pos
  have rows : 0 < Screen.height * scale := Nat.mul_pos (by decide) pos
  obtain ⟨right₀, left₁, bottom₀, top₁⟩ := Sides.meetScreen_iff.1 meets
  simp only [sides] at right₀ left₁ bottom₀ top₁
  refine ⟨max (o.x * scale) 0, max (o.y * scale) 0, ?_, ?_⟩
  · unfold Screen.Contains
    omega
  · rw [Meets, points, if_pos ⟨width, height, meets⟩]
    refine List.mem_append_left _ (List.mem_flatMap.2 ⟨_, mem_between.2 ⟨Int.le_refl _, ?_⟩, List.mem_cons_self⟩)
    simp only [Sides.clip, sides]
    omega

theorem drawAll_of_not_visible {queue : List Outline} {p : Rgba} (hidden : ∀ o ∈ queue, ¬o.Visible p.scale) :
    drawAll queue p = p := by
  induction queue with
  | nil => rfl
  | cons o queue ih =>
    rw [List.forall_mem_cons] at hidden
    have same : draw p o = p := by rw [draw, points_of_not_visible hidden.1, List.foldl_nil]
    change drawAll queue (draw p o) = p
    rw [same]
    exact ih hidden.2

end Outline

/-! ## Commits of a blank frame -/

namespace Rgba

theorem ext_bytes {p q : Rgba} (scale : p.scale = q.scale) (bytes : p.bytes = q.bytes) : p = q := by
  cases p
  cases q
  cases scale
  cases bytes
  rfl

theorem appendEntries_zeros (palette : Palette) (size i n : Nat) (b : ByteArray) :
    appendEntries palette (Bytes.zeros size) i b n = Bytes.appendZeros b (4 * n) := by
  induction n generalizing i b with
  | zero => rfl
  | succ n ih =>
    have zero : (Bytes.at? (Bytes.zeros size) i).getD 0 = 0 := by
      rw [Bytes.at?_zeros]
      split <;> rfl
    rw [appendEntries, zero, ih]
    rfl

theorem resolve_blank (palette : Palette) (scale : Nat) : resolve palette (Canvas.blank scale) = blank scale := by
  refine ext_bytes rfl ?_
  let size := Screen.area * scale * scale
  change appendEntries palette (Bytes.zeros size) 0 (ByteArray.emptyWithCapacity _) (Bytes.zeros size).size = _
  rw [appendEntries_zeros, Bytes.size_zeros]
  rfl

theorem alpha_of_pixel? {p : Rgba} {x y : Int} {q : Pixel} (shown : p.pixel? x y = some q) :
    ∃ i, Bytes.at? p.bytes i = some q.2.2.2 := by
  simp only [pixel?, Option.bind_eq_bind, Option.bind_eq_some_iff, Option.pure_def, Option.some.injEq] at shown
  obtain ⟨i, -, r, -, g, -, b, -, a, alpha, rfl⟩ := shown
  exact ⟨4 * i + 3, alpha⟩

end Rgba

namespace Commit

/-- A commit of a blank frame shows nothing exactly when none of the outlines on it shows. -/
theorem picture_blank_iff (m : Machine) {scale : Nat} (pos : 0 < scale) (outlines : List Outline) :
    (picture ⟨m, Canvas.blank scale, outlines⟩).bytes = Bytes.zeros (4 * (Screen.area * scale * scale)) ↔
      ∀ o ∈ outlines, ¬o.Visible scale := by
  rw [picture, Rgba.resolve_blank]
  constructor
  · intro blank o mem visible
    obtain ⟨x, y, contains, meets⟩ := Outline.meets_of_visible pos visible
    obtain ⟨top, found⟩ : ∃ top, outlines.reverse.find? (Outline.Meets scale x y) = some top :=
      Option.isSome_iff_exists.1 (List.find?_isSome.2 ⟨o, List.mem_reverse.2 mem, decide_eq_true meets⟩)
    have shown := Outline.pixel?_drawAll outlines (Rgba.blank scale) contains
    rw [show (Rgba.blank scale).scale = scale from rfl, found] at shown
    obtain ⟨i, opaque_⟩ := Rgba.alpha_of_pixel? shown
    rw [blank, Bytes.at?_zeros] at opaque_
    split at opaque_ <;> cases opaque_
  · intro hidden
    rw [Outline.drawAll_of_not_visible hidden]
    rfl

end Commit

namespace Renderer

variable {r : Renderer}

theorem canvas_blank {scale : Nat} (pos : 0 < scale) (i : Frame) :
    (Frames.blank scale).canvas i = .ok (Canvas.blank scale) := by
  have frames : Frames.blank scale = ⟨scale, Buffer.blank scale, Buffer.blank scale⟩ := by
    rw [Frames.blank, Nat.max_eq_left pos]
  rw [frames]
  cases i <;> exact dif_pos (Bytes.size_zeros _)

theorem commit_blank {scale : Nat} (pos : 0 < scale) (blank : r.context.frames = Frames.blank scale) (m : Machine)
    (i : Frame) :
    Returns (r.commit m i.toNat) fun left =>
      left.color i.toNat = .ok (Commit.mk m (Canvas.blank scale) r.context.outlines).picture.bytes := by
  let picture := (Commit.mk m (Canvas.blank scale) r.context.outlines).picture
  have frames : Returns (r.context.frames.commit i (Palette.read m) r.context.outlines) fun frames =>
      frames = r.context.frames.modify i ({ · with color := picture.bytes }) := by
    rw [Frames.commit, blank, canvas_blank pos]
    exact .pure rfl
  have context : Returns (r.context.commit m i) fun c => (c.frames.get i).color = picture.bytes :=
    frames.bind fun _ eq => .pure (by rw [eq, Frames.get_modify, if_pos rfl])
  have named : Frame.ofIndex i.toNat = .ok i := by cases i <;> rfl
  rw [commit, named]
  exact context.bind fun c color => .pure (by rw [color_eq, color])

/-- The renderer after a change of the scale: the outlines stay queued. -/
def rescaled (r : Renderer) (scale : Nat) : Renderer :=
  { r with
    config := { r.config with scale }
    context := { r.context with frames := Frames.blank scale } }

theorem setScale_of_ne {scale : Nat} (pos : 0 < scale) (other : scale ≠ r.scale) :
    r.setScale scale = (.ok true, r.rescaled scale, [.scaleChanged scale]) := by
  have changed : r.context.frames.rescale scale = (true, Frames.blank scale) := if_neg other
  rw [setScale, if_neg (Nat.ne_of_gt pos), changed]
  rfl

theorem eq_rescaled {scale : Nat} {r' : Renderer} {events : List Event} (sound : r.Sound)
    (changed : r.setScale scale = (.ok true, r', events)) : 0 < scale ∧ r' = r.rescaled scale := by
  rcases Nat.eq_zero_or_pos scale with rfl | pos
  · cases changed
  · by_cases same : scale = r.scale
    · rw [same, sound.setScale_same] at changed
      cases changed
    · rw [setScale_of_ne pos same] at changed
      cases changed
      exact ⟨pos, rfl⟩

/-- **A change of the scale starts over, but for what is queued.** A scale of zero is refused and the present scale is no
change. A change blanks both frames at the new size and marks them as without 3D content. The first commit after it leaves
its frame blank exactly when no outline that was queued before the change shows at the new scale. -/
theorem blank_after_setScale_iff {start r : Renderer} (initial : Initial start) {requests : List Request}
    (ran : start.run requests = .ok r) :
    r.setScale 0 = (.error (.invalidScale 0), r, []) ∧
    r.setScale r.scale = (.ok false, r, []) ∧
    ∀ scale r' events, r.setScale scale = (.ok true, r', events) →
      r'.scale = scale ∧ r'.config.scale = scale ∧
      (∀ i : Frame, r'.indexed i.toNat = .ok (Bytes.zeros (Screen.area * scale * scale)) ∧
        r'.color i.toNat = .ok (Bytes.zeros (4 * (Screen.area * scale * scale))) ∧ r'.isActive i.toNat = .ok false) ∧
      ∀ m (i : Frame), Returns (r'.commit m i.toNat) fun left =>
        left.color i.toNat = .ok (Bytes.zeros (4 * (Screen.area * scale * scale))) ↔
          ∀ o ∈ r.context.outlines, ¬o.Visible scale := by
  have sound := initial.sound.run ran
  refine ⟨rfl, sound.setScale_same, fun scale r' events changed => ?_⟩
  obtain ⟨pos, rfl⟩ := eq_rescaled sound changed
  have size : max scale 1 = scale := Nat.max_eq_left pos
  refine ⟨size, rfl, fun i => ?_, fun m i => ?_⟩
  · have frames : Frames.blank scale = ⟨scale, Buffer.blank scale, Buffer.blank scale⟩ := by rw [Frames.blank, size]
    simp only [indexed, color, isActive, rescaled, frames]
    cases i <;> exact ⟨rfl, rfl, rfl⟩
  · refine (commit_blank pos rfl m i).mono fun left shown => ?_
    rw [shown, Except.ok.injEq]
    exact Commit.picture_blank_iff m pos r.context.outlines

/-- After a session every outline that is still queued decides it; the scale of the session itself is no change. -/
theorem blank_after_setScale_iff_racers :
    ∃ r, Initial default ∧ default.run racersSession = .ok r ∧ r.setScale r.scale = (.ok false, r, []) ∧
      ∀ r' events, r.setScale 3 = (.ok true, r', events) → ∀ m, Returns (r'.commit m 0) fun left =>
        left.color 0 = .ok (Bytes.zeros (4 * (Screen.area * 3 * 3))) ↔ ∀ o ∈ r.context.outlines, ¬o.Visible 3 := by
  have initial : Initial default := .inl rfl
  obtain ⟨r, ran, -⟩ := initial.sound.run_returns racersSession_isValid
  obtain ⟨-, same, changed⟩ := blank_after_setScale_iff initial ran
  refine ⟨r, initial, ran, same, fun r' events more m => ?_⟩
  exact (changed 3 r' events more).2.2.2 m .zero

/-! ## An outline that is queued when the scale changes -/

/-- The outline of a sprite of the scenery. -/
def environmentOutline (m : Machine) : Outline :=
  let s := V3d.environmentSprite m
  ⟨s.left, s.top, saturate32 (s.right - s.left), saturate32 (s.bottom - s.top), V3d.stretchedColor⟩

theorem outlines_environment {config : Config} (debugDraw : config.debugDraw = true) (c : Context) (m : Machine)
    (front : Frame) :
    Leaves (V3d.perform config c m front .asterixEnvironment) fun left =>
      left.1.outlines = c.outlines ++ [environmentOutline m] := by
  refine (Context.hides_draw _ front.other _).bind fun d hidden => .pure ?_
  rw [hidden.outlines, Context.outline, if_pos debugDraw]
  rfl

theorem outlines_onBreakpoint {game : V3d.Game} {pc : Address} (active : r.active = some .v3d)
    (state : r.v3d.state = .active game) (armed : r.context.breakpoints.contains pc = true)
    (called : game.routineAt? pc = some .asterixEnvironment) (debugDraw : r.config.debugDraw = true) (m : Machine) :
    Leaves (r.onBreakpoint m pc) fun left => left.1.context.outlines = r.context.outlines ++ [environmentOutline m] := by
  have hooked : Leaves (r.v3d.hook r.config r.context m pc) fun left =>
      left.2.1.outlines = r.context.outlines ++ [environmentOutline m] := by
    unfold V3d.hook
    rw [state]
    dsimp only
    rw [called]
    refine Leaves.bind (P := fun left => left.1.outlines = _) ?_ fun left queued => .pure queued
    exact (outlines_environment debugDraw r.context m _).bind fun left queued => .pure queued
  rw [onBreakpoint, if_pos armed, active]
  exact hooked.bind fun left queued => .pure queued

/-- A configuration that asks for outlines. -/
def outlining : Config := { Config.default with debugDraw := true }

/-- A sprite is drawn on a machine at rest. -/
def scenerySession : List Request :=
  [.configure (.ofChars 'B' 'L' 'X' 'P'), .breakpoint (.withCartridge .empty false) 0x03006144]

/-- The renderer while the game of the session is drawn. -/
def drawingScenery : Renderer :=
  { ofConfig outlining with
    v3d := ⟨V3d.supported.profiles, .active V3d.asterix⟩
    context := (Context.blank 1).armAll V3d.asterix.addresses
    active := some .v3d }

theorem fresh_scenery : fresh outlining (.ofChars 'B' 'L' 'X' 'P') = drawingScenery := by
  have found : V3d.supported.profileFor? (.ofChars 'B' 'L' 'X' 'P') = some (.game V3d.asterix) := by decide
  have engine : (ofConfig outlining).engineFor? (.ofChars 'B' 'L' 'X' 'P') = some .v3d := by decide
  rw [fresh, engine]
  exact start_v3d found outlining

theorem scenerySession_returns :
    Returns ((ofConfig outlining).run scenerySession) fun r =>
      r.scale = 1 ∧ r.context.outlines = [environmentOutline (.withCartridge .empty false)] := by
  have pos : 0 < outlining.scale := by decide
  have sound : drawingScenery.Sound := fresh_scenery ▸ sound_fresh pos _
  have armed : drawingScenery.context.breakpoints.contains 0x03006144 = true := by decide
  have called : V3d.asterix.routineAt? 0x03006144 = some .asterixEnvironment := by decide
  have queued := outlines_onBreakpoint (r := drawingScenery) rfl rfl armed called rfl (.withCartridge .empty false)
  have stepped : Returns (drawingScenery.step (.breakpoint (.withCartridge .empty false) 0x03006144)) fun r =>
      r.scale = 1 ∧ r.context.outlines = [environmentOutline (.withCartridge .empty false)] :=
    ((sound.onBreakpoint_returns _ _).and queued).bind fun left both => .pure ⟨both.1.context.frames.scale, both.2⟩
  have configured : ((ofConfig outlining).configure (.ofChars 'B' 'L' 'X' 'P')).2.1 = drawingScenery :=
    (configure_of_unconfigure (unconfigure_ofConfig pos) _).1.trans fresh_scenery
  rw [scenerySession, Renderer.run, Renderer.step, configured]
  refine Returns.bind (P := fun r => r = drawingScenery) (.pure rfl) ?_
  rintro _ rfl
  rw [Renderer.run]
  exact stepped.bind fun r left => .pure left

/-- An outline that a sprite queued before a change of the scale shows on the first commit after it. -/
theorem outline_shows_after_setScale :
    ∃ start r r' events, new outlining = .ok start ∧ start.run scenerySession = .ok r ∧
      r.setScale 2 = (.ok true, r', events) ∧
      Returns (r'.commit (.withCartridge .empty false) 0) fun left =>
        left.color 0 ≠ .ok (Bytes.zeros (4 * (Screen.area * 2 * 2))) := by
  have pos : 0 < outlining.scale := by decide
  obtain ⟨r, ran, scale, queued⟩ := scenerySession_returns
  have changed : r.setScale 2 = (.ok true, r.rescaled 2, [.scaleChanged 2]) :=
    setScale_of_ne (by decide) (by rw [scale]; decide)
  refine ⟨ofConfig outlining, r, r.rescaled 2, _, new_of_pos pos, ran, changed, ?_⟩
  refine (commit_blank (r := r.rescaled 2) (by decide) rfl (.withCartridge .empty false) .zero).mono fun left shown => ?_
  intro blank
  have hidden : ∀ o ∈ r.context.outlines, ¬o.Visible 2 :=
    (Commit.picture_blank_iff _ (by decide) _).1 (Except.ok.inj (shown.symm.trans blank))
  rw [queued] at hidden
  exact hidden _ (List.mem_singleton_self _) (by decide)

end Renderer

end Redraw

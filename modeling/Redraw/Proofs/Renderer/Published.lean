import Redraw.Proofs.Engine.Publishing
import Redraw.Proofs.Renderer.Requests

/-!
# Only commits publish

A host shows the color pictures of the frames. Along the requests the latest commit of each frame is remembered
(`history`), and forgotten when the frames start over. At every moment the color picture of a frame is the picture of that
commit, blank when there is none (`only_commits_publish`): drawing on the indices, commits of the other frame and writes
to the palette do not show.
-/

namespace Redraw.Renderer

/-! ## The history of commits -/

/-- The request gives up what is drawn: both frames start over blank. -/
def StartsOver (r : Renderer) : Request → Prop
  | .configure _ | .loadCartridge _ | .unconfigure => True
  | .setScale scale => 0 < scale ∧ scale ≠ r.scale
  | _ => False

instance (r : Renderer) (q : Request) : Decidable (r.StartsOver q) := by
  cases q <;> unfold StartsOver <;> infer_instance

/-- The frame that a request commits. -/
def committed? (r : Renderer) : Request → Option Frame
  | .breakpoint m pc =>
    if r.context.breakpoints.contains pc then
      match r.active with
      | some .v3d => r.v3d.committed? m pc
      | some .drome => r.drome.committed? m pc
      | some .downhillJam => r.downhillJam.committed? m pc
      | none => none
    else none
  | .commit _ index => (Frame.ofIndex index).toOption
  | _ => none

/-- What a request that works on a machine leaves behind. -/
def left? (r : Renderer) : Request → Option (Renderer × Machine)
  | .breakpoint m pc => (r.onBreakpoint m pc).toOption.map fun left => (left.1, left.2.1)
  | .commit m index => (r.commit m index).toOption.map fun left => (left, m)
  | _ => none

/-- What a request that commits a frame resolves: the indices that it leaves in the frame, through the palette of the
machine that it leaves, below the outlines that were queued. -/
def commit? (r : Renderer) (i : Frame) (q : Request) : Option Commit := do
  let (left, m) ← r.left? q
  let canvas ← (left.context.frames.canvas i).toOption
  return ⟨m, canvas, r.context.outlines⟩

/-- The latest commit of each frame. -/
abbrev History := Frame → Option Commit

def History.empty : History := fun _ => none

def History.after (h : History) (r : Renderer) (q : Request) : History := fun i =>
  if r.StartsOver q then none
  else if r.committed? q = some i then r.commit? i q
  else h i

/-- The latest commit of each frame since the frames started over, after some requests. -/
def history (r : Renderer) (h : History) : List Request → History
  | [] => h
  | q :: requests =>
    match r.step q with
    | .ok next => next.history (h.after r q) requests
    | .error _ => h

/-! ## Steps -/

/-- Between `r` and `r'` the request `q` published what it committed and nothing else. -/
structure Publishes (r : Renderer) (q : Request) (r' : Renderer) : Prop where
  scale : r'.scale = r.scale
  kept : ∀ i, r.committed? q ≠ some i → (r'.context.frames.get i).color = (r.context.frames.get i).color
  shown : ∀ i, r.committed? q = some i → r'.context.outlines = [] ∧ ∃ k, r.commit? i q = some k ∧
    k.canvas.scale = r.scale ∧ (r'.context.frames.get i).color = k.picture.bytes

theorem scale_of_canvas {f : Frames} {i : Frame} {c : Canvas} (held : f.canvas i = .ok c) : c.scale = f.scale := by
  unfold Frames.canvas at held
  dsimp only at held
  split at held
  · cases held
    rfl
  · cases held

variable {r r' : Renderer}

/-- A request that commits nothing publishes nothing. -/
theorem publishes_nothing {q : Request} (none : r.committed? q = none) (scale : r'.scale = r.scale)
    (same : ∀ i, (r'.context.frames.get i).color = (r.context.frames.get i).color) : r.Publishes q r' :=
  ⟨scale, fun i _ => same i, fun i some => by rw [none] at some; cases some⟩

/-- What a request does to the context is what it publishes. -/
theorem publishes_of_context {q : Request} {m : Machine} (left : r.left? q = some (r', m)) (scale : r'.scale = r.scale)
    (published : r.context.Publishes m (r.committed? q) r'.context) : r.Publishes q r' := by
  refine ⟨scale, published.kept, fun i committed => ?_⟩
  obtain ⟨empty, canvas, held, color⟩ := published.shown i committed
  refine ⟨empty, ⟨m, canvas, r.context.outlines⟩, ?_, (scale_of_canvas held).trans scale, color⟩
  rw [commit?, left]
  change (do let canvas ← (r'.context.frames.canvas i).toOption; some (Commit.mk ..)) = _
  rw [held]
  rfl

theorem publishes_runEngine {engine : Engine} (active : r.active = some engine) {m : Machine} {pc : Address}
    (armed : r.context.breakpoints.contains pc = true) :
    Leaves (r.runEngine m pc engine) fun left =>
      r.context.Publishes left.2.1 (r.committed? (.breakpoint m pc)) left.1.context := by
  rw [committed?, if_pos armed, active]
  cases engine with
  | v3d => exact (V3d.publishes_hook r.config r.context m r.v3d pc).bind fun left published => .pure published
  | drome => exact (r.drome.publishes_hook r.context m pc).bind fun o published => .pure published
  | downhillJam => exact (r.downhillJam.publishes_hook r.context m pc).bind fun left published => .pure published

theorem publishes_onBreakpoint (r : Renderer) (m : Machine) (pc : Address) :
    Leaves (r.onBreakpoint m pc) fun left =>
      r.context.Publishes left.2.1 (r.committed? (.breakpoint m pc)) left.1.context := by
  unfold onBreakpoint
  by_cases armed : r.context.breakpoints.contains pc
  · rw [if_pos armed]
    cases active : r.active with
    | some engine => exact publishes_runEngine active armed
    | none =>
      rw [committed?, if_pos armed, active]
      exact .pure (Context.publishes_none (fun _ => rfl) m)
  · rw [if_neg armed, committed?, if_neg armed]
    exact .pure (Context.publishes_none (fun _ => rfl) m)

theorem publishes_commit (r : Renderer) (m : Machine) (index : Nat) :
    Leaves (r.commit m index) fun r' => r.context.Publishes m (r.committed? (.commit m index)) r'.context := by
  refine Leaves.bind (P := fun i => Frame.ofIndex index = .ok i) (fun _ returned => returned) fun i found => ?_
  rw [committed?, found]
  exact (r.context.publishes_commit m i).bind fun _ published => .pure published

/-! ## Starting over -/

theorem frames_start (r : Renderer) (title : Title) (engine : Engine) :
    (r.start title engine).1.context.frames = r.context.frames := by
  cases engine with
  | v3d =>
    simp only [start, V3d.init]
    cases r.v3d.profileFor? title with
    | some profile => exact V3d.frames_arm r.context profile
    | none => rfl
  | drome =>
    simp only [start, Drome.init]
    cases Drome.profileFor? title <;> rfl
  | downhillJam => rfl

theorem frames_fresh (config : Config) (title : Title) : (fresh config title).context.frames = Frames.blank config.scale := by
  unfold fresh
  cases (ofConfig config).engineFor? title with
  | some engine => exact frames_start (ofConfig config) title engine
  | none => rfl

namespace Sound

/-- A request that starts the frames over leaves them blank. -/
theorem frames_of_startsOver {q : Request} (sound : r.Sound) (restarted : r.StartsOver q) (stepped : r.step q = .ok r') :
    ∃ scale, r'.context.frames = Frames.blank scale := by
  cases q with
  | configure title =>
    cases stepped
    rw [sound.configure_eq]
    exact ⟨_, frames_fresh r.config title⟩
  | loadCartridge rom =>
    cases stepped
    rw [sound.loadCartridge_eq]
    split
    · exact ⟨_, frames_fresh r.config _⟩
    · exact ⟨_, rfl⟩
  | unconfigure =>
    cases stepped
    rw [sound.unconfigure_eq]
    exact ⟨_, rfl⟩
  | setScale scale =>
    obtain ⟨pos, other⟩ := restarted
    cases stepped
    rw [setScale_eq r pos]
    exact ⟨scale, congrArg Prod.snd (if_neg other)⟩
  | breakpoint | commit | addBreakpoint | clearBreakpoints => cases restarted

theorem setScale_same (sound : r.Sound) : r.setScale r.scale = (.ok false, r, []) := by
  have config : { r.config with scale := r.context.frames.scale } = r.config := by rw [sound.scale]
  have pos : r.context.frames.scale ≠ 0 := Nat.ne_of_gt sound.sized.pos
  simp only [setScale, Renderer.scale, if_neg pos, Frames.rescale, if_true, config]
  rfl

/-- A request that does not start the frames over publishes what it commits. -/
theorem publishes_step {q : Request} (sound : r.Sound) (goesOn : ¬r.StartsOver q) (stepped : r.step q = .ok r') :
    r.Publishes q r' := by
  cases q with
  | configure | loadCartridge | unconfigure => exact absurd trivial goesOn
  | setScale scale =>
    cases stepped
    rcases Nat.eq_zero_or_pos scale with rfl | pos
    · exact publishes_nothing rfl rfl fun _ => rfl
    · have same : scale = r.scale := Decidable.byContradiction fun other => goesOn ⟨pos, other⟩
      rw [same, sound.setScale_same]
      exact publishes_nothing rfl rfl fun _ => rfl
  | breakpoint m pc =>
    obtain ⟨left, returned, evolved⟩ := sound.onBreakpoint_returns m pc
    have published := r.publishes_onBreakpoint m pc left returned
    rw [Renderer.step, returned] at stepped
    cases stepped
    refine publishes_of_context (m := left.2.1) ?_ evolved.context.frames.scale published
    rw [left?, returned]
    rfl
  | commit m index =>
    have published := r.publishes_commit m index r' stepped
    refine publishes_of_context (m := m) ?_ (sound.commit_evolves stepped).context.frames.scale published
    change (r.commit m index).toOption.map _ = _
    rw [show r.commit m index = .ok r' from stepped]
    rfl
  | addBreakpoint a =>
    cases stepped
    exact publishes_nothing rfl rfl fun _ => rfl
  | clearBreakpoints =>
    cases stepped
    exact publishes_nothing rfl rfl fun _ => rfl

end Sound

/-! ## Runs -/

/-- What a frame shows, given its latest commit. -/
inductive Shows (r : Renderer) (i : Frame) : Option Commit → Prop where
  /-- Nothing was committed, and the frame is blank. -/
  | blank (color : r.color i.toNat = .ok (Bytes.zeros (4 * (Screen.area * r.scale * r.scale)))) : r.Shows i none
  /-- The frame shows what the commit resolved, pixel by pixel. -/
  | resolved (k : Commit) (picture : Rgba) (color : r.color i.toNat = .ok picture.bytes)
    (scale : picture.scale = r.scale) (pixels : ∀ x y, picture.pixel? x y = k.pixel? x y) : r.Shows i (some k)

theorem color_eq (r : Renderer) (i : Frame) : r.color i.toNat = .ok (r.context.frames.get i).color := by
  cases i <;> rfl

theorem shows_none {scale : Nat} (blank : r.context.frames = Frames.blank scale) (i : Frame) : r.Shows i none := by
  refine .blank ?_
  rw [color_eq, Renderer.scale, blank]
  cases i <;> rfl

theorem Initial.frames_eq {r : Renderer} (initial : Initial r) : ∃ scale, r.context.frames = Frames.blank scale := by
  rcases initial with rfl | ⟨config, started⟩
  · exact ⟨_, rfl⟩
  · obtain ⟨-, rfl⟩ := new_eq_ok started
    exact ⟨_, rfl⟩

theorem Shows.of_kept {i : Frame} {latest : Option Commit} (shows : r.Shows i latest) (scale : r'.scale = r.scale)
    (kept : r'.color i.toNat = r.color i.toNat) : r'.Shows i latest := by
  cases shows with
  | blank color => exact .blank (by rw [kept, scale, color])
  | resolved k picture color same pixels => exact .resolved k picture (kept.trans color) (same.trans scale.symm) pixels

variable {h : History}

theorem Sound.shows_step {q : Request} (sound : r.Sound) (shows : ∀ i, r.Shows i (h i)) (stepped : r.step q = .ok r')
    (i : Frame) : r'.Shows i (h.after r q i) := by
  unfold History.after
  by_cases restarted : r.StartsOver q
  · obtain ⟨scale, blank⟩ := sound.frames_of_startsOver restarted stepped
    rw [if_pos restarted]
    exact shows_none blank i
  · have published := sound.publishes_step restarted stepped
    rw [if_neg restarted]
    by_cases committed : r.committed? q = some i
    · obtain ⟨-, k, resolved, scale, color⟩ := published.shown i committed
      rw [if_pos committed, resolved]
      refine .resolved k k.picture ?_ ?_ k.pixel?_picture
      · rw [color_eq, color]
      · rw [k.scale_picture, scale, published.scale]
    · rw [if_neg committed]
      exact (shows i).of_kept published.scale (by rw [color_eq, color_eq, published.kept i committed])

theorem Sound.shows_run {requests : List Request} (sound : r.Sound) (shows : ∀ i, r.Shows i (h i))
    (ran : r.run requests = .ok r') (i : Frame) : r'.Shows i (r.history h requests i) := by
  induction requests generalizing r h with
  | nil =>
    cases ran
    exact shows i
  | cons q requests ih =>
    rw [Renderer.run] at ran
    cases stepped : r.step q with
    | error e =>
      rw [stepped] at ran
      cases ran
    | ok next =>
      rw [stepped] at ran
      rw [history, stepped]
      exact ih (sound.step stepped) (sound.shows_step shows stepped) ran

/-- **Only commits publish.** After any requests the color picture of a frame is blank if the frame was not committed since
the frames last started over, and otherwise it shows what the latest commit resolved. A request that commits a frame
leaves no outline queued; one that does not, and does not start the frames over, leaves the color picture of the frame
alone. -/
theorem only_commits_publish {start : Renderer} (initial : Initial start) {requests : List Request}
    (valid : ∀ q ∈ requests, q.IsValid) :
    Returns (start.run requests) fun r =>
      (∀ i, r.Shows i (start.history .empty requests i)) ∧
      ∀ q, q.IsValid → Returns (r.step q) fun r' =>
        (∀ i, r.committed? q = some i → r'.context.outlines = []) ∧
        (¬r.StartsOver q → ∀ i, r.committed? q ≠ some i → r'.color i.toNat = r.color i.toNat) := by
  obtain ⟨r, ran, sound⟩ := initial.sound.run_returns valid
  obtain ⟨scale, blank⟩ := initial.frames_eq
  refine ⟨r, ran, initial.sound.shows_run (shows_none blank) ran, fun q valid => ?_⟩
  obtain ⟨r', stepped, -⟩ := sound.step_returns valid
  refine ⟨r', stepped, fun i committed => ?_, fun goesOn i other => ?_⟩
  · by_cases restarted : r.StartsOver q
    · cases q with
      | configure | loadCartridge | unconfigure | setScale => cases committed
      | breakpoint | commit | addBreakpoint | clearBreakpoints => cases restarted
    · exact ((sound.publishes_step restarted stepped).shown i committed).1
  · rw [color_eq, color_eq, (sound.publishes_step goesOn stepped).kept i other]

/-- A game is drawn, and its frame is committed at another scale. -/
theorem only_commits_publish_racers :
    Initial default ∧ (∀ q ∈ racersSession, q.IsValid) ∧
      Returns (default.run racersSession) fun r => ∀ i, r.Shows i (default.history .empty racersSession i) := by
  have initial : Initial default := .inl rfl
  obtain ⟨r, ran, shows, -⟩ := only_commits_publish initial racersSession_isValid
  exact ⟨initial, racersSession_isValid, r, ran, shows⟩

end Redraw.Renderer

import Redraw.Proofs.Drome.Rasterize
import Redraw.Proofs.Engine.Hooks
import Redraw.Renderer

/-!
# What a host asks for

A host drives a renderer by requests, one after the other (`run`). Whatever it asks for, the frames fit the scale of the
configuration and every engine but the active one is at rest (`Sound.run`). So the renderer is never far from the one it
started as: unconfiguring gives the renderer at rest with the present configuration (`Sound.unconfigure_eq`).
-/

namespace Redraw

theorem Frame.exists_ofIndex {index : Nat} (lt : index < 2) : ∃ i, Frame.ofIndex index = .ok i := by
  match index, lt with
  | 0, _ => exact ⟨.zero, rfl⟩
  | 1, _ => exact ⟨.one, rfl⟩

namespace Renderer

/-- What a host can ask of a renderer. -/
inductive Request where
  | configure (title : Title)
  | loadCartridge (rom : ByteArray)
  | unconfigure
  | setScale (scale : Nat)
  /-- The machine is about to execute the instruction at an address. -/
  | breakpoint (m : Machine) (pc : Address)
  | commit (m : Machine) (index : Nat)
  | addBreakpoint (a : Address)
  | clearBreakpoints

/-- The request names a frame that there is, if it names one. -/
def Request.IsValid : Request → Prop
  | .commit _ index => index < 2
  | _ => True

def step (r : Renderer) : Request → Except Fault Renderer
  | .configure title => .ok (r.configure title).2.1
  | .loadCartridge rom => .ok (r.loadCartridge rom).2.1
  | .unconfigure => .ok r.unconfigure.1
  | .setScale scale => .ok (r.setScale scale).2.1
  | .breakpoint m pc => do return (← r.onBreakpoint m pc).1
  | .commit m index => r.commit m index
  | .addBreakpoint a => .ok (r.addBreakpoint a)
  | .clearBreakpoints => .ok r.clearBreakpoints

/-- Fulfils requests one after the other. -/
def run (r : Renderer) : List Request → Except Fault Renderer
  | [] => .ok r
  | q :: requests => do (← r.step q).run requests

/-- A game is drawn on a machine at rest, and then at another scale. -/
def racersSession : List Request :=
  [.configure (.ofChars 'A' 'O' 'E' 'X'), .breakpoint (.withCartridge .empty false) 0x030023D4, .setScale 2,
    .commit (.withCartridge .empty false) 0]

theorem racersSession_isValid : ∀ q ∈ racersSession, q.IsValid := by simp [racersSession, Request.IsValid]

/-- A renderer as a host gets it. -/
def Initial (r : Renderer) : Prop := r = default ∨ ∃ config, new config = .ok r

/-- What holds of a renderer and what is remembered of the requests, and is kept by every request, is kept by a run. -/
theorem run_induction {α : Type} {P : α → Renderer → Prop} {f : α → Request → α} (requests : List Request)
    (step : ∀ q ∈ requests, ∀ a r r', P a r → r.step q = .ok r' → P (f a q) r') {a : α} {r r' : Renderer} (h : P a r)
    (ran : r.run requests = .ok r') : P (requests.foldl f a) r' := by
  induction requests generalizing a r with
  | nil =>
    cases ran
    exact h
  | cons q requests ih =>
    rw [List.forall_mem_cons] at step
    rw [run] at ran
    cases stepped : r.step q with
    | error e =>
      rw [stepped] at ran
      cases ran
    | ok next =>
      rw [stepped] at ran
      exact ih step.2 (step.1 a r next h stepped) ran

/-! ## The invariant -/

/-- The frames fit the scale of the configuration, and every engine but the active one is at rest. -/
structure Sound (r : Renderer) : Prop where
  sized : r.context.frames.Sized
  scale : r.context.frames.scale = r.config.scale
  profiles : r.v3d.profiles = V3d.supported.profiles
  v3d : r.active ≠ some .v3d → r.v3d.state = .inactive
  game : r.active = some .v3d → ∃ game, r.v3d.state = .active game
  drome : r.active ≠ some .drome → r.drome = Drome.idle
  closed : r.drome.holes.toList = []
  downhillJam : r.active ≠ some .downhillJam → r.downhillJam = DownhillJam.idle

theorem sound_ofConfig {config : Config} (pos : 0 < config.scale) : (ofConfig config).Sound where
  sized := Frames.sized_blank config.scale
  scale := Nat.max_eq_left pos
  profiles := rfl
  v3d := fun _ => rfl
  game := fun active => nomatch active
  drome := fun _ => rfl
  closed := Bounded.toList_empty
  downhillJam := fun _ => rfl

theorem new_eq_ok {config : Config} {r : Renderer} (h : new config = .ok r) : 0 < config.scale ∧ r = ofConfig config := by
  unfold new Config.validate at h
  split at h
  · cases h
  · rename_i scale
    exact ⟨Nat.pos_of_ne_zero scale, (Except.ok.inj h).symm⟩

theorem new_of_pos {config : Config} (pos : 0 < config.scale) : new config = .ok (ofConfig config) := by
  rw [new, Config.validate, if_neg (Nat.ne_of_gt pos)]
  rfl

theorem Initial.sound {r : Renderer} (initial : Initial r) : r.Sound := by
  rcases initial with rfl | ⟨config, started⟩
  · exact sound_ofConfig Nat.zero_lt_one
  · obtain ⟨pos, rfl⟩ := new_eq_ok started
    exact sound_ofConfig pos

namespace Sound

variable {r : Renderer}

theorem pos (sound : r.Sound) : 0 < r.config.scale := sound.scale ▸ sound.sized.pos

/-! ## Unconfiguring -/

theorem v3d_deinit (sound : r.Sound) : r.v3d.deinit = V3d.supported := by
  rw [V3d.deinit, sound.profiles]
  rfl

theorem v3d_eq (sound : r.Sound) (other : r.active ≠ some .v3d) : r.v3d = V3d.supported := by
  rw [← sound.v3d_deinit, V3d.deinit, ← sound.v3d other]

/-- Unconfiguring forgets everything but the configuration. -/
theorem unconfigure_eq (sound : r.Sound) : r.unconfigure.1 = ofConfig r.config := by
  have frames : r.context.frames.reset = Frames.blank r.config.scale := by rw [sound.sized.reset_eq, sound.scale]
  have deinit := sound.v3d_deinit
  have v3d := sound.v3d_eq
  have drome := sound.drome
  have downhillJam := sound.downhillJam
  -- Only the engine that is active is brought to rest; the others have to be at rest already.
  unfold unconfigure
  cases active : r.active with
  | none =>
    rw [active] at v3d drome downhillJam
    simp only [forget, frames, ofConfig, v3d nofun, drome nofun, downhillJam nofun, Context.blank]
  | some engine =>
    rw [active] at v3d drome downhillJam
    cases engine with
    | v3d => simp only [rest, forget, frames, ofConfig, deinit, drome nofun, downhillJam nofun, Context.blank]
    | drome => simp only [rest, forget, frames, ofConfig, v3d nofun, downhillJam nofun, Context.blank]
    | downhillJam => simp only [rest, forget, frames, ofConfig, v3d nofun, drome nofun, Context.blank]

end Sound

/-! ## Configuring -/

theorem unconfigure_ofConfig {config : Config} (pos : 0 < config.scale) :
    (ofConfig config).unconfigure.1 = ofConfig config := (sound_ofConfig pos).unconfigure_eq

/-- The renderer after a title was handed to it at rest. -/
def fresh (config : Config) (title : Title) : Renderer :=
  match (ofConfig config).engineFor? title with
  | some engine => ((ofConfig config).start title engine).1
  | none => ofConfig config

theorem configure_of_unconfigure {r : Renderer} {config : Config} (rested : r.unconfigure.1 = ofConfig config)
    (title : Title) :
    (r.configure title).2.1 = fresh config title ∧
      (r.configure title).1 = ((ofConfig config).engineFor? title).isSome := by
  unfold configure fresh
  dsimp only
  rw [rested]
  cases (ofConfig config).engineFor? title <;> exact ⟨rfl, rfl⟩

theorem identifies_of_engineFor? {r : Renderer} {title : Title} {engine : Engine}
    (found : r.engineFor? title = some engine) : r.identifies title engine = true := List.find?_some found

/-- A supported title stands for a game. -/
theorem profileFor?_supported {title : Title} {profile : V3d.Profile}
    (found : V3d.supported.profileFor? title = some profile) : ∃ game ∈ V3d.games, profile = .game game := by
  obtain ⟨game, mem, rfl⟩ := List.mem_map.1 (List.mem_of_find?_eq_some found)
  exact ⟨game, mem, rfl⟩

theorem start_v3d {title : Title} {game : V3d.Game} (found : V3d.supported.profileFor? title = some (.game game))
    (config : Config) :
    ((ofConfig config).start title .v3d).1 =
      { ofConfig config with
        v3d := ⟨V3d.supported.profiles, .active game⟩
        context := (Context.blank config.scale).armAll game.addresses
        active := some .v3d } := by
  simp only [start, V3d.init, show (ofConfig config).v3d = V3d.supported from rfl, found]
  rfl

theorem start_drome {title : Title} {profile : Drome.Profile} (found : Drome.profileFor? title = some profile)
    (config : Config) :
    ((ofConfig config).start title .drome).1 =
      { ofConfig config with
        drome := ⟨some ⟨profile, config.policyFor title profile.policy⟩, Bounded.empty⟩
        context := (Context.blank config.scale).arm profile.trampoline
        active := some .drome } := by
  simp only [start, Drome.init, found]
  rfl

theorem start_downhillJam (config : Config) (title : Title) :
    ((ofConfig config).start title .downhillJam).1 =
      { ofConfig config with
        downhillJam := ⟨true⟩
        context := (Context.blank config.scale).armAll DownhillJam.addresses
        active := some .downhillJam } := rfl

theorem sound_start {config : Config} {title : Title} {engine : Engine} (pos : 0 < config.scale)
    (found : (ofConfig config).engineFor? title = some engine) : ((ofConfig config).start title engine).1.Sound := by
  obtain ⟨sized, scale, profiles, v3d, -, drome, closed, downhillJam⟩ := sound_ofConfig pos
  have identified := identifies_of_engineFor? found
  cases engine with
  | v3d =>
    obtain ⟨profile, found⟩ := Option.isSome_iff_exists.1 identified
    obtain ⟨game, -, rfl⟩ := profileFor?_supported found
    rw [start_v3d found]
    exact ⟨sized, scale, profiles, fun other => absurd rfl other, fun _ => ⟨game, rfl⟩, fun _ => drome nofun, closed,
      fun _ => downhillJam nofun⟩
  | drome =>
    obtain ⟨profile, found⟩ := Option.isSome_iff_exists.1 identified
    rw [start_drome found]
    exact ⟨sized, scale, profiles, fun _ => v3d nofun, nofun, fun other => absurd rfl other, Bounded.toList_empty,
      fun _ => downhillJam nofun⟩
  | downhillJam =>
    rw [start_downhillJam]
    exact ⟨sized, scale, profiles, fun _ => v3d nofun, nofun, fun _ => drome nofun, closed,
      fun other => absurd rfl other⟩

theorem sound_fresh {config : Config} (pos : 0 < config.scale) (title : Title) : (fresh config title).Sound := by
  unfold fresh
  split
  · rename_i engine found
    exact sound_start pos found
  · exact sound_ofConfig pos

/-! ## Hits and commits -/

/-- The renderer after a request that only draws or commits: everything that was set up is the same. -/
structure Evolves (r r' : Renderer) : Prop where
  config : r'.config = r.config
  active : r'.active = r.active
  v3d : r'.v3d = r.v3d
  drome : r'.drome.active = r.drome.active
  closed : r'.drome.holes.toList = []
  idle : r.active ≠ some .drome → r'.drome = r.drome
  downhillJam : r'.downhillJam = r.downhillJam
  context : r.context.Evolves r'.context

namespace Sound

variable {r r' : Renderer}

theorem refl (sound : r.Sound) : r.Evolves r :=
  ⟨rfl, rfl, rfl, rfl, sound.closed, fun _ => rfl, rfl, Context.evolves_refl sound.sized⟩

theorem of_evolves (sound : r.Sound) (evolved : r.Evolves r') : r'.Sound := by
  obtain ⟨config, active, v3d, -, closed, idle, downhillJam, context⟩ := evolved
  refine ⟨context.frames.sized, ?_, ?_, ?_, ?_, ?_, closed, ?_⟩
  · rw [context.frames.scale, config, sound.scale]
  · rw [v3d, sound.profiles]
  · rw [active, v3d]
    exact sound.v3d
  · rw [active, v3d]
    exact sound.game
  · rw [active]
    exact fun other => (idle other).trans (sound.drome other)
  · rw [active, downhillJam]
    exact sound.downhillJam

theorem runEngine_returns (sound : r.Sound) {engine : Engine} (active : r.active = some engine) (m : Machine)
    (pc : Address) : Returns (r.runEngine m pc engine) fun left => r.Evolves left.1 := by
  cases engine with
  | v3d =>
    obtain ⟨game, state⟩ := sound.game active
    refine (V3d.hook_returns state sound.sized r.config m pc).bind fun left handled => .pure ?_
    exact { sound.refl with v3d := handled.1, context := handled.2.1 }
  | drome =>
    refine (Drome.hook_returns sound.closed sound.sized m pc).bind fun o handled => .pure ?_
    exact { sound.refl with
      closed := handled.1, idle := fun other => absurd active other, context := handled.2.1 }
  | downhillJam =>
    refine (DownhillJam.hook_returns sound.sized r.downhillJam m pc).bind fun left handled => .pure ?_
    exact { sound.refl with context := handled.1 }

theorem onBreakpoint_returns (sound : r.Sound) (m : Machine) (pc : Address) :
    Returns (r.onBreakpoint m pc) fun left => r.Evolves left.1 := by
  unfold onBreakpoint
  split
  · split
    · rename_i engine active
      exact sound.runEngine_returns active m pc
    · exact .pure sound.refl
  · exact .pure sound.refl

theorem commit_evolves (sound : r.Sound) {m : Machine} {index : Nat} (committed : r.commit m index = .ok r') :
    r.Evolves r' := by
  unfold commit at committed
  cases found : Frame.ofIndex index with
  | error e =>
    rw [found] at committed
    cases committed
  | ok i =>
    obtain ⟨context, returned, evolved⟩ := Context.commit_returns sound.sized m i
    rw [found] at committed
    change (do return { r with context := ← r.context.commit m i }) = Except.ok r' at committed
    rw [returned] at committed
    obtain rfl := Except.ok.inj committed
    exact { sound.refl with context := evolved }

/-! ## Every request -/

theorem configure_eq (sound : r.Sound) (title : Title) : (r.configure title).2.1 = fresh r.config title :=
  (configure_of_unconfigure sound.unconfigure_eq title).1

/-- A cartridge with a header is configured for, and one without leaves the renderer at rest. -/
theorem loadCartridge_eq (sound : r.Sound) (rom : ByteArray) :
    (r.loadCartridge rom).2.1 =
      match Title.ofHeader rom with
      | .ok title => fresh r.config title
      | .error _ => ofConfig r.config := by
  unfold loadCartridge
  dsimp only
  rw [sound.unconfigure_eq]
  cases Title.ofHeader rom with
  | error e => rfl
  | ok title => exact (configure_of_unconfigure (unconfigure_ofConfig sound.pos) title).1

theorem setScale_eq (r : Renderer) {scale : Nat} (pos : 0 < scale) :
    (r.setScale scale).2.1 =
      { r with
        config := { r.config with scale }
        context := { r.context with frames := (r.context.frames.rescale scale).2 } } := by
  rw [setScale, if_neg (Nat.ne_of_gt pos)]

theorem sound_setScale (sound : r.Sound) (scale : Nat) : (r.setScale scale).2.1.Sound := by
  rcases Nat.eq_zero_or_pos scale with rfl | pos
  · exact sound
  · rw [setScale_eq r pos]
    refine { sound with sized := sound.sized.rescale scale, scale := ?_ }
    change (r.context.frames.rescale scale).2.scale = scale
    unfold Frames.rescale
    split
    · rename_i same
      exact same.symm
    · exact Nat.max_eq_left pos

theorem step {q : Request} (sound : r.Sound) (stepped : r.step q = .ok r') : r'.Sound := by
  cases q with
  | configure title =>
    cases stepped
    rw [sound.configure_eq]
    exact sound_fresh sound.pos title
  | loadCartridge rom =>
    cases stepped
    rw [sound.loadCartridge_eq]
    split
    · exact sound_fresh sound.pos _
    · exact sound_ofConfig sound.pos
  | unconfigure =>
    cases stepped
    rw [sound.unconfigure_eq]
    exact sound_ofConfig sound.pos
  | setScale scale =>
    cases stepped
    exact sound.sound_setScale scale
  | breakpoint m pc =>
    obtain ⟨left, returned, evolved⟩ := sound.onBreakpoint_returns m pc
    rw [Renderer.step, returned] at stepped
    cases stepped
    exact sound.of_evolves evolved
  | commit m index => exact sound.of_evolves (sound.commit_evolves stepped)
  | addBreakpoint a =>
    cases stepped
    exact { sound with }
  | clearBreakpoints =>
    cases stepped
    exact { sound with }

theorem step_returns (sound : r.Sound) {q : Request} (valid : q.IsValid) : Returns (r.step q) Sound := by
  have all (returned : ∃ r', r.step q = .ok r') : Returns (r.step q) Sound :=
    let ⟨r', stepped⟩ := returned
    ⟨r', stepped, sound.step stepped⟩
  cases q with
  | configure | loadCartridge | unconfigure | setScale | addBreakpoint | clearBreakpoints => exact all ⟨_, rfl⟩
  | breakpoint m pc =>
    exact (sound.onBreakpoint_returns m pc).bind fun left evolved => .pure (sound.of_evolves evolved)
  | commit m index =>
    obtain ⟨i, found⟩ := Frame.exists_ofIndex valid
    obtain ⟨context, returned, -⟩ := Context.commit_returns sound.sized m i
    refine all ⟨{ r with context }, ?_⟩
    rw [Renderer.step, Renderer.commit, found]
    change (do return { r with context := ← r.context.commit m i }) = Except.ok _
    rw [returned]
    rfl

theorem run_returns {requests : List Request} (sound : r.Sound) (valid : ∀ q ∈ requests, q.IsValid) :
    Returns (r.run requests) Sound := by
  induction requests generalizing r with
  | nil => exact .pure sound
  | cons q requests ih =>
    rw [List.forall_mem_cons] at valid
    exact (sound.step_returns valid.1).bind fun next sound => ih sound valid.2

theorem run {requests : List Request} (sound : r.Sound) (ran : r.run requests = .ok r') : r'.Sound :=
  run_induction (P := fun (_ : Unit) r => r.Sound) (f := fun _ _ => ()) (a := ()) requests
    (fun _ _ _ _ _ sound stepped => sound.step stepped) sound ran

end Sound

end Renderer

end Redraw

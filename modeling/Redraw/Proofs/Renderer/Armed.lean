import Redraw.Proofs.Renderer.Requests

/-!
# What is armed

While a host arms nothing itself, the armed addresses are those of the title that is loaded, only the engine of that
title runs, and a hit on any armed address is handled (`armed_for_loaded`). The active engine, the states of the engines
and the armed addresses are kept apart, so the argument is about all of them at once, the `Setup`: it is always one that
fits the loaded title (`Setup.Fits`). Only a request that loads or unloads a title changes it.
-/

namespace Redraw

/-! ## The addresses of a title -/

namespace Breakpoints

theorem addresses_addAll (b : Breakpoints) {as : List Address} (nodup : (b.addresses ++ as).Nodup) :
    (b.addAll as).addresses = b.addresses ++ as := by
  induction as generalizing b with
  | nil => exact (List.append_nil _).symm
  | cons a as ih =>
    have added : (b.add a).addresses = b.addresses ++ [a] := by
      have new : ¬b.contains a = true := by
        rw [contains, List.contains_iff_mem]
        exact fun mem => (List.nodup_append.1 nodup).2.2 a mem a List.mem_cons_self rfl
      rw [add, if_neg new]
    change ((b.add a).addAll as).addresses = _
    rw [ih (b.add a) (by rwa [added, List.append_assoc]), added, List.append_assoc]
    rfl

theorem addresses_addAll_none {as : List Address} (nodup : as.Nodup) : (none.addAll as).addresses = as :=
  addresses_addAll none nodup

end Breakpoints

namespace V3d

/-- The addresses that are armed when a profile is loaded, in the order of its table. -/
def Profile.addresses : Profile → List Address
  | .game g => g.addresses
  | .menu _ _ address _ => [address]

theorem addresses_games {game : Game} (supported : game ∈ games) : game.addresses.Nodup ∧ game.addresses ≠ [] :=
  (by decide : ∀ game ∈ games, game.addresses.Nodup ∧ game.addresses ≠ []) game supported

end V3d

theorem DownhillJam.nodup_addresses : DownhillJam.addresses.Nodup := by decide

/-- The addresses that an engine arms for a title, in the order of its table. -/
def Engine.addresses (title : Title) : Engine → List Address
  | .v3d => ((V3d.supported.profileFor? title).map V3d.Profile.addresses).getD []
  | .drome => ((Drome.profileFor? title).map (·.trampoline)).toList
  | .downhillJam => DownhillJam.addresses

namespace Renderer

/-! ## Setups -/

/-- What loading a title sets up: everything but pictures, open holes and the configuration. -/
structure Setup where
  active : Option Engine
  armed : List Address
  v3d : V3d.State
  drome : Option Drome.Active
  downhillJam : Bool

def setup (r : Renderer) : Setup := ⟨r.active, r.breakpoints, r.v3d.state, r.drome.active, r.downhillJam.active⟩

/-- An engine is not at rest. -/
def Setup.IsRunning (s : Setup) : Engine → Prop
  | .v3d => s.v3d ≠ .inactive
  | .drome => s.drome.isSome
  | .downhillJam => s.downhillJam

/-- The setups that fit a loaded title: nothing runs if no engine draws it, else its engine does. -/
inductive Setup.Fits (title? : Option Title) : Setup → Prop
  | passive (unsupported : title?.bind default.engineFor? = none) : Fits title? ⟨none, [], .inactive, none, false⟩
  | v3d {title : Title} {game : V3d.Game} (loaded : title? = some title)
      (engine : default.engineFor? title = some .v3d)
      (found : V3d.supported.profileFor? title = some (.game game)) (supported : game ∈ V3d.games) :
      Fits title? ⟨some .v3d, game.addresses, .active game, none, false⟩
  | drome {title : Title} {profile : Drome.Profile} (policy : Policy) (loaded : title? = some title)
      (engine : default.engineFor? title = some .drome) (found : Drome.profileFor? title = some profile) :
      Fits title? ⟨some .drome, [profile.trampoline], .inactive, some ⟨profile, policy⟩, false⟩
  | downhillJam {title : Title} (loaded : title? = some title)
      (engine : default.engineFor? title = some .downhillJam) :
      Fits title? ⟨some .downhillJam, DownhillJam.addresses, .inactive, none, true⟩

namespace Setup.Fits

variable {title? : Option Title} {s : Setup}

theorem active_eq (fits : s.Fits title?) : s.active = title?.bind default.engineFor? := by
  cases fits with
  | passive unsupported => exact unsupported.symm
  | v3d loaded engine | drome _ loaded engine | downhillJam loaded engine =>
    subst loaded
    exact engine.symm

theorem armed_eq_nil_iff (fits : s.Fits title?) : s.armed = [] ↔ s.active = none := by
  cases fits with
  | passive => exact iff_of_true rfl rfl
  | v3d _ _ _ supported => exact iff_of_false (V3d.addresses_games supported).2 nofun
  | drome | downhillJam => exact iff_of_false nofun nofun

theorem armed_eq {engine : Engine} (fits : s.Fits title?) (active : s.active = some engine) :
    ∃ title, title? = some title ∧ default.engineFor? title = some engine ∧ s.armed = engine.addresses title ∧
      s.armed.Nodup := by
  cases fits with
  | passive => cases active
  | @v3d title game loaded drawn found supported =>
    cases active
    refine ⟨title, loaded, drawn, ?_, (V3d.addresses_games supported).1⟩
    rw [Engine.addresses, found]
    rfl
  | @drome title profile _ loaded drawn found =>
    cases active
    refine ⟨title, loaded, drawn, ?_, List.pairwise_singleton ..⟩
    rw [Engine.addresses, found]
    rfl
  | @downhillJam title loaded drawn =>
    cases active
    exact ⟨title, loaded, drawn, rfl, DownhillJam.nodup_addresses⟩

theorem isRunning_iff (fits : s.Fits title?) (engine : Engine) : s.IsRunning engine ↔ s.active = some engine := by
  cases fits <;> cases engine <;> simp [IsRunning]

end Setup.Fits

theorem fits_ofConfig (config : Config) {title? : Option Title} (unsupported : title?.bind default.engineFor? = none) :
    (ofConfig config).setup.Fits title? := .passive unsupported

theorem fits_start {config : Config} {title : Title} {engine : Engine}
    (found : default.engineFor? title = some engine) :
    ((ofConfig config).start title engine).1.setup.Fits (some title) := by
  have identified := identifies_of_engineFor? found
  cases engine with
  | v3d =>
    obtain ⟨profile, profiled⟩ := Option.isSome_iff_exists.1 identified
    obtain ⟨game, supported, rfl⟩ := profileFor?_supported profiled
    have fits := Setup.Fits.v3d rfl found profiled supported
    rw [← Breakpoints.addresses_addAll_none (V3d.addresses_games supported).1] at fits
    rw [start_v3d profiled]
    exact fits
  | drome =>
    obtain ⟨profile, profiled⟩ := Option.isSome_iff_exists.1 identified
    rw [start_drome profiled]
    exact .drome _ rfl found profiled
  | downhillJam =>
    have fits := Setup.Fits.downhillJam rfl found
    rw [← Breakpoints.addresses_addAll_none DownhillJam.nodup_addresses] at fits
    rw [start_downhillJam]
    exact fits

theorem fits_fresh (config : Config) (title : Title) : (fresh config title).setup.Fits (some title) := by
  unfold fresh
  split
  · rename_i engine found
    exact fits_start found
  · rename_i unsupported
    exact fits_ofConfig config unsupported

/-! ## The loaded title -/

namespace Request

/-- The host arms or disarms addresses itself. -/
def IsArming : Request → Prop
  | .addBreakpoint _ | .clearBreakpoints => True
  | _ => False

/-- The title that is loaded after a request, `title?` being loaded before it. -/
def title? (title? : Option Title) : Request → Option Title
  | .configure title => some title
  | .loadCartridge rom => (Title.ofHeader rom).toOption
  | .unconfigure => none
  | _ => title?

/-- The title that is loaded after requests to a renderer at rest: the last one that was handed over, unless a
cartridge without a header or an unconfiguration came after it. -/
def loaded (requests : List Request) : Option Title := requests.foldl title? none

end Request

/-- The renderer is sound and set up for a loaded title. -/
structure Follows (r : Renderer) (title? : Option Title) : Prop where
  sound : r.Sound
  fits : r.setup.Fits title?

theorem Initial.follows {r : Renderer} (initial : Initial r) : r.Follows none := by
  refine ⟨initial.sound, ?_⟩
  rcases initial with rfl | ⟨config, started⟩
  · exact fits_ofConfig _ rfl
  · rw [(new_eq_ok started).2]
    exact fits_ofConfig config rfl

theorem Evolves.setup_eq {r r' : Renderer} (evolved : r.Evolves r') : r'.setup = r.setup := by
  rw [setup, setup, breakpoints, breakpoints, evolved.active, evolved.context.breakpoints, evolved.v3d, evolved.drome,
    evolved.downhillJam]

theorem setup_setScale (r : Renderer) (scale : Nat) : (r.setScale scale).2.1.setup = r.setup := by
  rcases Nat.eq_zero_or_pos scale with rfl | pos
  · rfl
  · rw [Sound.setScale_eq r pos]
    rfl

/-- The engines draw the same titles whatever was asked for. -/
theorem Sound.engineFor?_eq {r : Renderer} (sound : r.Sound) (title : Title) :
    r.engineFor? title = default.engineFor? title := by
  have same : r.identifies title = default.identifies title := by
    funext engine
    cases engine with
    | v3d =>
      change (r.v3d.profileFor? title).isSome = (V3d.supported.profileFor? title).isSome
      rw [V3d.profileFor?, sound.profiles]
      rfl
    | drome | downhillJam => rfl
  rw [engineFor?, same]
  rfl

/-- A request sets everything up anew for the title that it loads, or it leaves the title and the setup as they are, up to
what the host arms and disarms itself. -/
theorem Sound.setup_step {r r' : Renderer} {q : Request} (sound : r.Sound) (stepped : r.step q = .ok r')
    (title? : Option Title) :
    r'.setup.Fits (q.title? title?) ∨
      q.title? title? = title? ∧ { r'.setup with armed := r.breakpoints } = r.setup ∧
        (¬q.IsArming → r'.setup = r.setup) := by
  have kept (same : r'.setup = r.setup) :
      { r'.setup with armed := r.breakpoints } = r.setup ∧ (¬q.IsArming → r'.setup = r.setup) :=
    ⟨by rw [same]; rfl, fun _ => same⟩
  cases q with
  | configure title =>
    cases stepped
    rw [sound.configure_eq]
    exact .inl (fits_fresh r.config title)
  | loadCartridge rom =>
    cases stepped
    rw [sound.loadCartridge_eq, Request.title?]
    left
    cases Title.ofHeader rom with
    | ok title => exact fits_fresh r.config title
    | error e => exact fits_ofConfig r.config rfl
  | unconfigure =>
    cases stepped
    rw [sound.unconfigure_eq]
    exact .inl (fits_ofConfig r.config rfl)
  | setScale scale =>
    cases stepped
    exact .inr ⟨rfl, kept (setup_setScale r scale)⟩
  | breakpoint m pc =>
    obtain ⟨left, returned, evolved⟩ := sound.onBreakpoint_returns m pc
    rw [Renderer.step, returned] at stepped
    cases stepped
    exact .inr ⟨rfl, kept evolved.setup_eq⟩
  | commit m index => exact .inr ⟨rfl, kept (sound.commit_evolves stepped).setup_eq⟩
  | addBreakpoint | clearBreakpoints =>
    cases stepped
    exact .inr ⟨rfl, rfl, fun passive => absurd trivial passive⟩

namespace Follows

variable {r r' : Renderer} {title? : Option Title}

theorem step {q : Request} (follows : r.Follows title?) (passive : ¬q.IsArming) (stepped : r.step q = .ok r') :
    r'.Follows (q.title? title?) := by
  refine ⟨follows.sound.step stepped, ?_⟩
  rcases follows.sound.setup_step stepped title? with fits | ⟨same, -, setup⟩
  · exact fits
  · rw [same, setup passive]
    exact follows.fits

/-- Whatever a host asks for, the setup fits the loaded title, if it arms nothing itself. -/
theorem run {requests : List Request} (follows : r.Follows title?) (passive : ∀ q ∈ requests, ¬q.IsArming)
    (ran : r.run requests = .ok r') : r'.Follows (requests.foldl Request.title? title?) :=
  run_induction (P := fun title? r => r.Follows title?) requests
    (fun q mem _ _ _ follows stepped => follows.step (passive q mem) stepped) follows ran

/-! ## Hits on armed addresses -/

/-- The active engine has a handler for every armed address. -/
theorem runEngine_returns {engine : Engine} (follows : r.Follows title?) (active : r.active = some engine) (m : Machine)
    {pc : Address} (armed : pc ∈ r.breakpoints) :
    Returns (r.runEngine m pc engine) fun left => Event.AllHandled left.2.2 := by
  obtain ⟨sound, fits⟩ := follows
  change r.setup.active = some engine at active
  change pc ∈ r.setup.armed at armed
  cases setup : r.setup with
  | mk active' armed' v3d drome downhillJam =>
  rw [setup] at fits active armed
  cases fits with
  | passive => cases active
  | v3d =>
    cases active
    exact (V3d.hook_returns (congrArg Setup.v3d setup) sound.sized r.config m pc).bind fun left handled =>
      .pure (handled.2.2 armed)
  | drome =>
    cases active
    exact (Drome.hook_returns sound.closed sound.sized m pc).bind fun o handled =>
      .pure (handled.2.2 ⟨_, congrArg Setup.drome setup, (List.mem_singleton.1 armed).symm⟩)
  | downhillJam =>
    cases active
    exact (DownhillJam.hook_returns sound.sized r.downhillJam m pc).bind fun left handled =>
      .pure (handled.2 (congrArg Setup.downhillJam setup) armed)

theorem onBreakpoint_eq (follows : r.Follows title?) (m : Machine) {pc : Address} (armed : pc ∈ r.breakpoints) :
    ∃ engine, r.active = some engine ∧ r.onBreakpoint m pc = r.runEngine m pc engine := by
  have contained : r.context.breakpoints.contains pc = true := List.contains_iff_mem.2 armed
  cases active : r.active with
  | none =>
    rw [show r.breakpoints = [] from follows.fits.armed_eq_nil_iff.2 active] at armed
    cases armed
  | some engine =>
    refine ⟨engine, rfl, ?_⟩
    rw [onBreakpoint, if_pos contained, active]

end Follows

/-- **The armed addresses are those of the loaded title.** After any requests of a host that arms nothing itself:
addresses are armed exactly while an engine is active, and then they are those of the loaded title in the order of its
table; exactly the active engine runs; no hole is open; and a hit on an armed address returns from a handler of the
active engine. -/
theorem armed_for_loaded {start r : Renderer} (initial : Initial start) {requests : List Request}
    (passive : ∀ q ∈ requests, ¬q.IsArming) (ran : start.run requests = .ok r) :
    r.active = (Request.loaded requests).bind r.engineFor? ∧
    (r.breakpoints = [] ↔ r.active = none) ∧
    (∀ engine, r.active = some engine → ∃ title, Request.loaded requests = some title ∧
      r.engineFor? title = some engine ∧ r.breakpoints = engine.addresses title ∧ r.breakpoints.Nodup) ∧
    (∀ engine, r.setup.IsRunning engine ↔ r.active = some engine) ∧
    r.drome.holes.toList = [] ∧
    ∀ m, ∀ pc ∈ r.breakpoints, ∃ engine, r.active = some engine ∧ r.onBreakpoint m pc = r.runEngine m pc engine ∧
      Returns (r.runEngine m pc engine) fun left => Event.AllHandled left.2.2 := by
  have follows : r.Follows (Request.loaded requests) := initial.follows.run passive ran
  have engines : r.engineFor? = default.engineFor? := funext follows.sound.engineFor?_eq
  refine ⟨?_, follows.fits.armed_eq_nil_iff, fun engine active => ?_, follows.fits.isRunning_iff,
    follows.sound.closed, fun m pc armed => ?_⟩
  · rw [engines]
    exact follows.fits.active_eq
  · rw [engines]
    exact follows.fits.armed_eq active
  · obtain ⟨engine, active, dispatched⟩ := follows.onBreakpoint_eq m armed
    exact ⟨engine, active, dispatched, follows.runEngine_returns active m armed⟩

/-- The trampoline stays armed through a session, and a hit on it is handled whatever the machine holds. -/
theorem armed_for_loaded_racers :
    ∃ r, Initial default ∧ (∀ q ∈ racersSession, ¬q.IsArming) ∧ default.run racersSession = .ok r ∧
      r.breakpoints = [0x030023D4] ∧ r.setup.IsRunning .drome ∧
      ∀ m, Returns (r.onBreakpoint m 0x030023D4) fun left => Event.AllHandled left.2.2 := by
  have initial : Initial default := .inl rfl
  have passive : ∀ q ∈ racersSession, ¬q.IsArming := by simp [racersSession, Request.IsArming]
  obtain ⟨r, ran, sound⟩ := initial.sound.run_returns racersSession_isValid
  have loaded : Request.loaded racersSession = some (.ofChars 'A' 'O' 'E' 'X') := rfl
  have drawn : r.engineFor? (.ofChars 'A' 'O' 'E' 'X') = some .drome := by
    rw [sound.engineFor?_eq]
    decide
  obtain ⟨active, -, armed, running, -, handled⟩ := armed_for_loaded initial passive ran
  rw [loaded, Option.bind_some, drawn] at active
  obtain ⟨title, same, -, armed, -⟩ := armed _ active
  rw [loaded, Option.some.injEq] at same
  subst same
  have breakpoints : r.breakpoints = [0x030023D4] := armed
  refine ⟨r, initial, passive, ran, breakpoints, (running _).2 active, fun m => ?_⟩
  obtain ⟨engine, -, dispatched, handled⟩ := handled m 0x030023D4 (by rw [breakpoints]; exact List.mem_singleton_self _)
  rwa [dispatched]

end Renderer

end Redraw

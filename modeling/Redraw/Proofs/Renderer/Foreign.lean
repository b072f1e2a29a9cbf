import Redraw.Proofs.Renderer.Armed

/-!
# Hits on foreign addresses

A host may arm addresses of its own, and those of a game may stay armed when it is left, so an engine can be called at any
address and in any state. It answers for the addresses that its state arms, which are those that it armed when it came into
the state (`V3d.arm_eq_armAll`, `Drome.init_eq_armAll`). At all others it only reports the call. The main statement
(`foreign_hits_inert`) says so for all engines, and for a renderer whatever its host armed and disarmed.
-/

namespace Redraw

theorem Breakpoints.mem_add_self (b : Breakpoints) (a : Address) : a ∈ (b.add a).addresses := by
  unfold add
  split
  · rename_i armed
    exact List.contains_iff_mem.1 armed
  · exact List.mem_append_right _ (List.mem_singleton_self a)

/-! ## V3D -/

namespace V3d

/-- The addresses that the engine answers for in a state. -/
def State.armed : State → List Address
  | .inactive => []
  | .choosing address _ => [address]
  | .active game => game.addresses

variable {e : V3d} {config : Config} {c : Context} {m : Machine} {pc : Address}

/-- Coming into a state arms its addresses. -/
theorem arm_eq_armAll (c : Context) (profile : Profile) : (arm c profile).2.1 = c.armAll (arm c profile).1.armed := by
  cases profile <;> rfl

theorem hook_of_not_armed (foreign : pc ∉ e.state.armed) :
    e.hook config c m pc = .ok (e, c, [.unhandledHook .v3d pc]) := by
  unfold hook
  cases state : e.state with
  | inactive => rfl
  | choosing address primary =>
    have other : pc ≠ address := by
      rintro rfl
      rw [state] at foreign
      exact foreign (List.mem_singleton_self pc)
    exact if_pos other
  | active game =>
    rw [state] at foreign
    have none_there : game.routineAt? pc = none := by
      refine List.lookup_eq_none_iff.2 fun entry mem => bne_iff_ne.2 ?_
      rintro rfl
      exact foreign (List.mem_map_of_mem mem)
    dsimp only
    rw [none_there]
    rfl

end V3d

/-! ## Drome and Downhill Jam -/

namespace Drome

/-- The addresses that the engine answers for: the trampoline of the game that is drawn. -/
def armed (e : Drome) : List Address := (e.active.map (·.profile.trampoline)).toList

variable {e : Drome} {c : Context} {m : Machine} {pc : Address}

theorem init_eq_armAll {title : Title} (drawn : identifies title = true) (e : Drome) (config : Config) (c : Context) :
    (e.init config c title).2.1 = c.armAll (e.init config c title).1.armed := by
  obtain ⟨profile, found⟩ := Option.isSome_iff_exists.1 drawn
  rw [init, found]
  rfl

theorem hook_of_not_armed (foreign : pc ∉ e.armed) :
    e.hook c m pc = .ok (e.report c m [.unhandledHook .drome pc]) := by
  unfold Drome.hook
  cases active : e.active with
  | none => rfl
  | some a =>
    have other : a.profile.trampoline ≠ pc := by
      rintro rfl
      rw [armed, active] at foreign
      exact foreign (List.mem_singleton_self _)
    exact if_neg other

end Drome

namespace DownhillJam

/-- The addresses that the engine answers for: those of its routines while it draws. -/
def armed (e : DownhillJam) : List Address := if e.active then addresses else []

variable {e : DownhillJam} {c : Context} {m : Machine} {pc : Address}

theorem hook_of_not_armed (foreign : pc ∉ e.armed) : e.hook c m pc = .ok (c, [.unhandledHook .downhillJam pc]) := by
  obtain ⟨active⟩ := e
  unfold hook
  cases active with
  | false => rfl
  | true =>
    simp only [armed, if_true, addresses, List.mem_cons, List.not_mem_nil, or_false, not_or] at foreign
    obtain ⟨clear, flip, fill⟩ := foreign
    simp only [Bool.not_true, Bool.false_eq_true, if_false, clear, flip, fill]
    rfl

end DownhillJam

/-! ## The renderer -/

namespace Renderer

variable {r r' : Renderer} {title? : Option Title} {engine : Engine} {m : Machine} {pc : Address}

/-- The addresses that an engine answers for as it is now. -/
def own (r : Renderer) : Engine → List Address
  | .v3d => r.v3d.state.armed
  | .drome => r.drome.armed
  | .downhillJam => r.downhillJam.armed

theorem runEngine_of_not_own (foreign : pc ∉ r.own engine) :
    r.runEngine m pc engine = .ok (r, m, [.unhandledHook engine pc]) := by
  cases engine with
  | v3d =>
    rw [runEngine, V3d.hook_of_not_armed foreign]
    rfl
  | drome =>
    rw [runEngine, Drome.hook_of_not_armed foreign]
    rfl
  | downhillJam =>
    rw [runEngine, DownhillJam.hook_of_not_armed foreign]
    rfl

/-- The renderer is sound and serves the loaded title. What is armed may be something else: the host arms and disarms what
it likes. -/
structure Serves (r : Renderer) (title? : Option Title) : Prop where
  sound : r.Sound
  fits : ∃ armed, ({ r.setup with armed } : Setup).Fits title?

theorem Follows.serves (follows : r.Follows title?) : r.Serves title? := ⟨follows.sound, r.breakpoints, follows.fits⟩

namespace Serves

theorem step {q : Request} (serves : r.Serves title?) (stepped : r.step q = .ok r') : r'.Serves (q.title? title?) := by
  obtain ⟨sound, armed, fits⟩ := serves
  refine ⟨sound.step stepped, ?_⟩
  rcases sound.setup_step stepped title? with anew | ⟨same, setup, -⟩
  · exact ⟨r'.breakpoints, anew⟩
  · have kept : { r'.setup with armed } = { r.setup with armed } := congrArg (fun s : Setup => { s with armed }) setup
    exact ⟨armed, by rwa [same, kept]⟩

/-- Whatever a host asks for, the active engine is that of the loaded title. -/
theorem run {requests : List Request} (serves : r.Serves title?) (ran : r.run requests = .ok r') :
    r'.Serves (requests.foldl Request.title? title?) :=
  run_induction (P := fun title? r => r.Serves title?) requests
    (fun _ _ _ _ _ serves stepped => serves.step stepped) serves ran

/-- The active engine answers for the addresses of the loaded title. -/
theorem own_eq (serves : r.Serves title?) (active : r.active = some engine) :
    ∃ title, title? = some title ∧ r.engineFor? title = some engine ∧ r.own engine = engine.addresses title := by
  obtain ⟨sound, armed, fits⟩ := serves
  obtain ⟨title, loaded, drawn, addresses, -⟩ := fits.armed_eq active
  refine ⟨title, loaded, (sound.engineFor?_eq title).trans drawn, Eq.trans ?_ addresses⟩
  change r.setup.active = some engine at active
  cases setup : r.setup with
  | mk active' armed' v3d drome downhillJam =>
  rw [setup] at fits active
  -- The state of each engine is the one in the setup, which arms what fits the title.
  have state : r.v3d.state = v3d := congrArg Setup.v3d setup
  have state' : r.drome.active = drome := congrArg Setup.drome setup
  have state'' : r.downhillJam.active = downhillJam := congrArg Setup.downhillJam setup
  cases fits with
  | passive => cases active
  | v3d =>
    cases active
    rw [own, state]
    rfl
  | drome =>
    cases active
    rw [own, Drome.armed, state']
    rfl
  | downhillJam =>
    cases active
    rw [own, DownhillJam.armed, state'']
    rfl

end Serves

theorem onBreakpoint_of_foreign (serves : r.Serves title?)
    (foreign : ¬(pc ∈ r.breakpoints ∧
      ∃ title engine, title? = some title ∧ r.engineFor? title = some engine ∧ pc ∈ engine.addresses title)) :
    Returns (r.onBreakpoint m pc) fun left => left.1 = r ∧ left.2.1 = m ∧ ∀ event ∈ left.2.2, event.IsUnhandled := by
  have nothing : Returns (.ok (r, m, [])) fun left : Renderer × Machine × List Event =>
      left.1 = r ∧ left.2.1 = m ∧ ∀ event ∈ left.2.2, event.IsUnhandled := .pure ⟨rfl, rfl, nofun⟩
  unfold onBreakpoint
  split
  · rename_i armed
    cases active : r.active with
    | none => exact nothing
    | some engine =>
      obtain ⟨title, loaded, drawn, own⟩ := serves.own_eq active
      have other : pc ∉ r.own engine := fun mem =>
        foreign ⟨List.contains_iff_mem.1 armed, title, engine, loaded, drawn, own ▸ mem⟩
      dsimp only
      rw [runEngine_of_not_own other]
      refine .pure ⟨rfl, rfl, fun event mem => ?_⟩
      rw [List.mem_singleton.1 mem]
      trivial
  · exact nothing

/-- **Foreign hits change nothing.** An engine that is called at an address that it did not arm when it came into its state
reports the call and leaves itself, the context and the machine as they are. After any requests of a host, arming and
disarming included, a hit changes nothing unless its address is armed and is an address of the loaded title in the table of
the engine that draws it. -/
theorem foreign_hits_inert :
    ((∀ (c : Context) (profile : V3d.Profile), (V3d.arm c profile).2.1 = c.armAll (V3d.arm c profile).1.armed) ∧
      ∀ (e : V3d) (config : Config) (c : Context) (m : Machine) (pc : Address), pc ∉ e.state.armed →
        e.hook config c m pc = .ok (e, c, [.unhandledHook .v3d pc])) ∧
    ((∀ (e : Drome) (config : Config) (c : Context) (title : Title), Drome.identifies title = true →
        (e.init config c title).2.1 = c.armAll (e.init config c title).1.armed) ∧
      ∀ (e : Drome) (c : Context) (m : Machine) (pc : Address), pc ∉ e.armed →
        e.hook c m pc = .ok ⟨e.holes, c, m, [.unhandledHook .drome pc]⟩) ∧
    ((∀ (c : Context) (title : Title), (DownhillJam.init c title).2.1 = c.armAll (DownhillJam.init c title).1.armed) ∧
      ∀ (e : DownhillJam) (c : Context) (m : Machine) (pc : Address), pc ∉ e.armed →
        e.hook c m pc = .ok (c, [.unhandledHook .downhillJam pc])) ∧
    ∀ (start r : Renderer) (requests : List Request), Initial start → start.run requests = .ok r →
      ∀ (m : Machine) (pc : Address),
        ¬(pc ∈ r.breakpoints ∧ ∃ title engine, Request.loaded requests = some title ∧
          r.engineFor? title = some engine ∧ pc ∈ engine.addresses title) →
        Returns (r.onBreakpoint m pc) fun left =>
          left.1 = r ∧ left.2.1 = m ∧ ∀ event ∈ left.2.2, event.IsUnhandled := by
  refine ⟨⟨V3d.arm_eq_armAll, fun _ _ _ _ _ => V3d.hook_of_not_armed⟩,
    ⟨fun e config c _ drawn => Drome.init_eq_armAll drawn e config c, fun _ _ _ _ => Drome.hook_of_not_armed⟩,
    ⟨fun _ _ => rfl, fun _ _ _ _ => DownhillJam.hook_of_not_armed⟩, ?_⟩
  intro start r requests initial ran m pc foreign
  exact onBreakpoint_of_foreign (initial.follows.serves.run ran) foreign

/-- A menu is open, an engine is at rest or draws, and a host arms an address of its own after a title is loaded. -/
theorem foreign_hits_inert_racers :
    let menu : V3d := ⟨[], .choosing 0x08001234 (.game V3d.asterix2in1)⟩
    let c := Context.blank 1
    let m := Machine.withCartridge .empty false
    let requests : List Request := [.configure (.ofChars 'A' 'O' 'E' 'X'), .addBreakpoint 0x08000000]
    (0x03004198 ∉ menu.state.armed ∧
      menu.hook Config.default c m 0x03004198 = .ok (menu, c, [.unhandledHook .v3d 0x03004198])) ∧
    (0x030023D4 ∉ Drome.idle.armed ∧
      Drome.idle.hook c m 0x030023D4 = .ok ⟨Drome.idle.holes, c, m, [.unhandledHook .drome 0x030023D4]⟩) ∧
    (0x08000000 ∉ (⟨true⟩ : DownhillJam).armed ∧
      (⟨true⟩ : DownhillJam).hook c m 0x08000000 = .ok (c, [.unhandledHook .downhillJam 0x08000000])) ∧
    ∃ r, Initial default ∧ default.run requests = .ok r ∧ 0x08000000 ∈ r.breakpoints ∧
      (¬∃ title engine, Request.loaded requests = some title ∧ r.engineFor? title = some engine ∧
        0x08000000 ∈ engine.addresses title) ∧
      Returns (r.onBreakpoint m 0x08000000) fun left =>
        left.1 = r ∧ left.2.1 = m ∧ ∀ event ∈ left.2.2, event.IsUnhandled := by
  intro menu c m requests
  obtain ⟨⟨-, v3d⟩, ⟨-, drome⟩, ⟨-, downhillJam⟩, renderer⟩ := foreign_hits_inert
  have elsewhere : 0x03004198 ∉ menu.state.armed := by decide
  have idle : 0x030023D4 ∉ Drome.idle.armed := by decide
  have drawing : 0x08000000 ∉ (⟨true⟩ : DownhillJam).armed := by decide
  refine ⟨⟨elsewhere, v3d _ _ _ _ _ elsewhere⟩, ⟨idle, drome _ _ _ _ idle⟩, ⟨drawing, downhillJam _ _ _ _ drawing⟩, ?_⟩
  have initial : Initial default := .inl rfl
  have valid : ∀ request ∈ requests, request.IsValid := by simp [requests, Request.IsValid]
  obtain ⟨r, ran, sound⟩ := initial.sound.run_returns valid
  have armed : 0x08000000 ∈ r.breakpoints := by
    cases ran
    exact Breakpoints.mem_add_self _ _
  have foreign : ¬∃ title engine, Request.loaded requests = some title ∧ r.engineFor? title = some engine ∧
      0x08000000 ∈ engine.addresses title := by
    rintro ⟨title, engine, loaded, drawn, mem⟩
    cases loaded
    rw [sound.engineFor?_eq, show default.engineFor? (.ofChars 'A' 'O' 'E' 'X') = some .drome by decide] at drawn
    cases drawn
    exact absurd mem (by decide)
  exact ⟨r, initial, ran, armed, foreign, renderer default r requests initial ran m _ fun both => foreign both.2⟩

end Renderer

end Redraw

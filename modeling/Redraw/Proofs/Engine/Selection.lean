import Redraw.Engine.V3d
import Redraw.Proofs.Calls

/-!
# Choosing a game in a menu

A cartridge with several games is drawn only after a choice in its menu. Until then the engine waits: whatever is hit, only
the address of the choice stays armed (`runHits_waiting`). The choice is a clean restart (`selection_restarts`): the engine
goes on as one that was started with the chosen game and never showed a menu. The machine is only read all along, so no
statement here mentions the one that a hit leaves behind.
-/

namespace Redraw.V3d

/-! ## Hits in a row -/

/-- A hit on an address, with the configuration and the machine that the engine sees then. -/
structure Hit where
  config : Config
  machine : Machine
  pc : Address

/-- The first game of the menu is chosen, at the address that the menu calls with a choice. -/
def Hit.Chooses (h : Hit) (address : Address) : Prop := h.pc = address ∧ h.machine.register 0 = 0

/-- Handles hits one after the other. -/
def runHits (e : V3d) (c : Context) : List Hit → Except Fault (V3d × Context × List Event)
  | [] => .ok (e, c, [])
  | h :: hits => do
    let (e, c, events) ← e.hook h.config c h.machine h.pc
    let (e, c, more) ← runHits e c hits
    return (e, c, events ++ more)

/-- What hits leave behind, apart from the table of profiles: titles are looked up in it, and hits do not. -/
def effect (left : V3d × Context × List Event) : State × Context × List Event := (left.1.state, left.2)

variable {e e' : V3d} {c d : Context} {events : List Event}

theorem runHits_cons {h : Hit} (hooked : e.hook h.config c h.machine h.pc = .ok (e', d, events)) (hits : List Hit) :
    e.runHits c (h :: hits) = do
      let (left, context, more) ← e'.runHits d hits
      return (left, context, events ++ more) := by
  rw [runHits, hooked]
  rfl

theorem runHits_append {before : List Hit} (ran : e.runHits c before = .ok (e', d, events)) (hits : List Hit) :
    e.runHits c (before ++ hits) = do
      let (left, context, more) ← e'.runHits d hits
      return (left, context, events ++ more) := by
  induction before generalizing e c events with
  | nil =>
    cases ran
    rw [List.nil_append]
    cases e'.runHits d hits <;> rfl
  | cons h before ih =>
    cases hooked : e.hook h.config c h.machine h.pc with
    | error fault =>
      rw [runHits, hooked] at ran
      cases ran
    | ok next =>
      obtain ⟨f, context, first⟩ := next
      rw [runHits_cons hooked] at ran
      cases rest : f.runHits context before with
      | error fault =>
        rw [rest] at ran
        cases ran
      | ok left =>
        obtain ⟨g, context', more⟩ := left
        rw [rest] at ran
        cases ran
        rw [List.cons_append, runHits_cons hooked, ih rest]
        cases e'.runHits d hits with
        | error fault => rfl
        | ok left => exact congrArg (fun events => Except.ok (left.1, left.2.1, events)) (List.append_assoc ..).symm

/-! ## The table of profiles -/

theorem hook_congr (same : e.state = e'.state) (h : Hit) (c : Context) :
    (e.hook h.config c h.machine h.pc).map effect = (e'.hook h.config c h.machine h.pc).map effect := by
  have report (c : Context) (events : List Event) : effect (e, c, events) = effect (e', c, events) := by
    rw [effect, effect, same]
  unfold hook
  rw [same]
  cases e'.state with
  | inactive => exact congrArg Except.ok (report c _)
  | choosing address primary =>
    dsimp only
    split
    · exact congrArg Except.ok (report c _)
    · split
      · exact congrArg Except.ok (report c _)
      · rfl
  | active game =>
    dsimp only
    cases game.routineAt? h.pc with
    | none => exact congrArg Except.ok (report c _)
    | some routine =>
      dsimp only
      cases run h.config c h.machine game routine with
      | error fault => rfl
      | ok left => exact congrArg Except.ok (report left.1 left.2)

/-- Calls with the same effect fault alike, or leave the same behind apart from the table of profiles. -/
theorem same_effect_cases {x y : Except Fault (V3d × Context × List Event)} (same : x.map effect = y.map effect) :
    (∃ fault, x = .error fault ∧ y = .error fault) ∨
      ∃ f g : V3d, f.state = g.state ∧ ∃ left, x = .ok (f, left) ∧ y = .ok (g, left) := by
  cases x with
  | error fault =>
    cases y with
    | error fault' =>
      cases same
      exact .inl ⟨fault, rfl, rfl⟩
    | ok right => cases same
  | ok left =>
    cases y with
    | error fault => cases same
    | ok right =>
      obtain ⟨f, left⟩ := left
      obtain ⟨g, right⟩ := right
      obtain ⟨state, rfl⟩ := Prod.mk.inj (Except.ok.inj same)
      exact .inr ⟨f, g, state, left, rfl, rfl⟩

/-- Engines in one state handle hits alike, whatever profiles they have. -/
theorem runHits_congr (same : e.state = e'.state) (c : Context) (hits : List Hit) :
    (e.runHits c hits).map effect = (e'.runHits c hits).map effect := by
  induction hits generalizing e e' c with
  | nil => exact congrArg (fun state => Except.ok (state, c, [])) same
  | cons h hits ih =>
    rcases same_effect_cases (hook_congr same h c) with
      ⟨fault, hooked, hooked'⟩ | ⟨f, g, state, ⟨d, events⟩, hooked, hooked'⟩
    · rw [runHits, runHits, hooked, hooked']
    · have reported (g : V3d) : (do
            let (left, context, more) ← g.runHits d hits
            return (left, context, events ++ more) : Except Fault (V3d × Context × List Event)).map effect =
          ((g.runHits d hits).map effect).map fun left => (left.1, left.2.1, events ++ left.2.2) := by
        cases g.runHits d hits <;> rfl
      rw [runHits_cons hooked, runHits_cons hooked', reported, reported, ih state d]

/-! ## Waiting -/

variable {title : Title} {name : String} {titles : List Title} {address : Address} {primary profile : Profile}

theorem init_of_found (found : e.profileFor? title = some profile) (c : Context) :
    e.init c title = ({ e with state := (arm c profile).1 }, (arm c profile).2) := by
  rw [init, found]

theorem arm_menu (c : Context) :
    arm c (.menu name titles address primary) = (.choosing address primary, c.arm address, [.waitingForChoice name]) := rfl

theorem hook_waiting (waiting : e.state = .choosing address primary) {h : Hit} (other : ¬h.Chooses address)
    (c : Context) : ∃ events, e.hook h.config c h.machine h.pc = .ok (e, c, events) := by
  unfold hook
  rw [waiting]
  dsimp only
  by_cases pc : h.pc = address
  · have choice : h.machine.register 0 ≠ 0 := fun zero => other ⟨pc, zero⟩
    rw [if_neg fun different => different pc, if_pos choice]
    exact ⟨_, rfl⟩
  · rw [if_pos pc]
    exact ⟨_, rfl⟩

theorem hook_choice (waiting : e.state = .choosing address primary) {h : Hit} (chooses : h.Chooses address)
    (c : Context) :
    e.hook h.config c h.machine h.pc =
      .ok ({ e with state := (arm c.disarm primary).1 }, (arm c.disarm primary).2) := by
  unfold hook
  rw [waiting]
  dsimp only
  rw [if_neg fun different => different chooses.1, if_neg fun other => other chooses.2]
  rfl

/-- Hits that choose nothing change nothing. -/
theorem runHits_waiting (waiting : e.state = .choosing address primary) {hits : List Hit}
    (others : ∀ h ∈ hits, ¬h.Chooses address) (c : Context) : ∃ events, e.runHits c hits = .ok (e, c, events) := by
  induction hits with
  | nil => exact ⟨[], rfl⟩
  | cons h hits ih =>
    rw [List.forall_mem_cons] at others
    obtain ⟨events, hooked⟩ := hook_waiting waiting others.1 c
    obtain ⟨more, ran⟩ := ih others.2
    refine ⟨events ++ more, ?_⟩
    rw [runHits_cons hooked, ran]
    rfl

theorem runHits_choice (waiting : e.state = .choosing address primary) {before : List Hit}
    (others : ∀ h ∈ before, ¬h.Chooses address) {choice : Hit} (chooses : choice.Chooses address) (c : Context) :
    ∃ events, e.runHits c (before ++ [choice]) =
      .ok ({ e with state := (arm c.disarm primary).1 }, (arm c.disarm primary).2.1, events) := by
  obtain ⟨events, ran⟩ := runHits_waiting waiting others c
  have chosen := hook_choice waiting chooses c
  refine ⟨events ++ ((arm c.disarm primary).2.2 ++ []), ?_⟩
  rw [runHits_append ran, runHits_cons chosen]
  rfl

/-- **A clean restart.** An engine that is started with a menu arms the address of the choice and nothing else. Hits that do
not choose the first game change neither the engine nor the context. When one does, after any hits that do not, the engine is
in the state and leaves the context that every engine does which is started with the chosen game directly, and from then on
both answer all hits alike. -/
theorem selection_restarts (found : e.profileFor? title = some (.menu name titles address primary))
    (unarmed : c.breakpoints = .none) :
    let started := e.init c title
    started.2.1 = { c with breakpoints := ⟨[address]⟩ } ∧
    (∀ hits : List Hit, (∀ h ∈ hits, ¬h.Chooses address) →
      ∃ events, started.1.runHits started.2.1 hits = .ok (started.1, started.2.1, events)) ∧
    ∀ (before : List Hit) (choice : Hit), (∀ h ∈ before, ¬h.Chooses address) → choice.Chooses address →
      ∃ selected events,
        started.1.runHits started.2.1 (before ++ [choice]) = .ok (selected, (arm c primary).2.1, events) ∧
        selected.state = (arm c primary).1 ∧
        ∀ (direct : V3d) (title' : Title), direct.profileFor? title' = some primary →
          let d := direct.init c title'
          d.1.state = selected.state ∧ d.2.1 = (arm c primary).2.1 ∧
          ∀ after, (selected.runHits d.2.1 after).map effect = (d.1.runHits d.2.1 after).map effect := by
  intro started
  have waiting : started.1.state = .choosing address primary := by
    rw [show started = e.init c title from rfl, init_of_found found]
    rfl
  have armed : started.2.1 = { c with breakpoints := ⟨[address]⟩ } := by
    rw [show started = e.init c title from rfl, init_of_found found, arm_menu]
    change { c with breakpoints := c.breakpoints.add address } = _
    rw [unarmed]
    rfl
  have disarmed : started.2.1.disarm = c := by
    rw [armed]
    change { c with breakpoints := .none } = c
    rw [← unarmed]
  refine ⟨armed, fun hits others => runHits_waiting waiting others _, fun before choice others chooses => ?_⟩
  obtain ⟨events, ran⟩ := runHits_choice waiting others chooses started.2.1
  rw [disarmed] at ran
  refine ⟨{ started.1 with state := (arm c primary).1 }, events, ran, rfl, fun direct title' found' => ?_⟩
  rw [init_of_found found']
  have same : ({ started.1 with state := (arm c primary).1 } : V3d).state =
      ({ direct with state := (arm c primary).1 } : V3d).state := rfl
  exact ⟨rfl, rfl, runHits_congr same (arm c primary).2.1⟩

/-- The menu of a cartridge with two games. -/
def cartridgeMenu : Profile := .menu "cartridge menu" [.ofChars 'B' '2' 'A' 'P'] 0x08001234 (.game asterix2in1)

/-- The second game of the cartridge is chosen, which is not supported, and then the first one. -/
theorem selection_restarts_cartridge :
    let c := Context.blank 1
    let second : Hit := ⟨Config.default, (Machine.withCartridge .empty false).setRegister 0 1, 0x08001234⟩
    let first : Hit := ⟨Config.default, Machine.withCartridge .empty false, 0x08001234⟩
    (withProfiles [cartridgeMenu]).profileFor? (.ofChars 'B' '2' 'A' 'P') = some cartridgeMenu ∧
      c.breakpoints = .none ∧ (∀ h ∈ [second], ¬h.Chooses 0x08001234) ∧ first.Chooses 0x08001234 ∧
      supported.profileFor? (.ofChars 'B' '2' 'A' 'P') = some (.game asterix2in1) ∧
      let started := (withProfiles [cartridgeMenu]).init c (.ofChars 'B' '2' 'A' 'P')
      started.2.1.breakpoints.addresses = [0x08001234] ∧
      ∃ selected context events,
        started.1.runHits started.2.1 [second, first] = .ok (selected, context, events) ∧
        selected.state = .active asterix2in1 ∧ context.breakpoints.addresses = asterix2in1.addresses ∧
        (supported.init c (.ofChars 'B' '2' 'A' 'P')).2.1 = context := by
  intro c second first
  have found : (withProfiles [cartridgeMenu]).profileFor? (.ofChars 'B' '2' 'A' 'P') = some cartridgeMenu := by decide
  have found' : supported.profileFor? (.ofChars 'B' '2' 'A' 'P') = some (.game asterix2in1) := by decide
  have unsupported : ∀ h ∈ [second], ¬h.Chooses 0x08001234 := by
    intro h mem
    rw [List.mem_singleton.1 mem]
    exact fun chooses => absurd chooses.2 (by decide)
  have chooses : first.Chooses 0x08001234 := ⟨rfl, by decide⟩
  obtain ⟨armed, -, choice⟩ := selection_restarts found (c := c) rfl
  obtain ⟨selected, events, ran, state, restarted⟩ := choice [second] first unsupported chooses
  obtain ⟨-, direct, -⟩ := restarted supported _ found'
  have armed' : (Breakpoints.none.addAll asterix2in1.addresses).addresses = asterix2in1.addresses := by decide
  exact ⟨found, rfl, unsupported, chooses, found', by rw [armed], selected, _, events, ran, state, armed', direct⟩

end Redraw.V3d

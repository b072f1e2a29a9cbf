import Redraw.Proofs.Checked.Drome
import Redraw.Proofs.Checked.Hooks
import Redraw.Proofs.Renderer.Requests

/-!
# Requests never fail

The active engine is an index into the list of engines, and a hit hands it operands that come unchecked out of the registers
and the memory of the machine. Whatever they are, no access of a run fails and the frames keep fitting their scale
(`run_never_fails`).
-/

namespace Redraw

namespace Renderer

/-- The request asks for no scale at which the dimensions of a picture leave the numbers of 32 bits. -/
def Request.Fits : Request → Prop
  | .setScale scale => Screen.width * scale < 2147483648
  | _ => True

theorem racersSession_fits : ∀ q ∈ racersSession, q.Fits := by simp [racersSession, Request.Fits, Screen.width]

variable {r r' : Renderer}

theorem config_start (r : Renderer) (title : Title) (engine : Engine) : (r.start title engine).1.config = r.config := by
  cases engine <;> rfl

theorem config_fresh (config : Config) (title : Title) : (fresh config title).config = config := by
  unfold fresh
  split
  · exact config_start ..
  · rfl

/-- Only another scale changes the configuration. -/
theorem Sound.config_step {q : Request} (sound : r.Sound) (stepped : r.step q = .ok r') :
    r'.config = r.config ∨ ∃ scale, q = .setScale scale ∧ 0 < scale ∧ r'.config = { r.config with scale } := by
  cases q with
  | configure title =>
    cases stepped
    exact .inl (sound.configure_eq title ▸ config_fresh ..)
  | loadCartridge rom =>
    cases stepped
    rw [sound.loadCartridge_eq]
    split
    · exact .inl (config_fresh ..)
    · exact .inl rfl
  | unconfigure =>
    cases stepped
    exact .inl (sound.unconfigure_eq ▸ rfl)
  | setScale scale =>
    cases stepped
    rcases Nat.eq_zero_or_pos scale with rfl | pos
    · exact .inl rfl
    · exact .inr ⟨scale, rfl, pos, setScale_eq r pos ▸ rfl⟩
  | breakpoint m pc =>
    obtain ⟨left, returned, evolved⟩ := sound.onBreakpoint_returns m pc
    rw [Renderer.step, returned] at stepped
    cases stepped
    exact .inl evolved.config
  | commit m index => exact .inl (sound.commit_evolves stepped).config
  | addBreakpoint | clearBreakpoints =>
    cases stepped
    exact .inl rfl

theorem Sound.fits_step {q : Request} (sound : r.Sound) (fits : Checked.Fits r.scale) (fitting : q.Fits)
    (stepped : r.step q = .ok r') : Checked.Fits r'.scale := by
  have before : r.scale = r.config.scale := sound.scale
  have after : r'.scale = r'.config.scale := (sound.step stepped).scale
  rcases sound.config_step stepped with same | ⟨scale, rfl, pos, changed⟩
  · rw [after, same, ← before]
    exact fits
  · rw [after, changed]
    exact ⟨pos, fitting⟩

end Renderer

namespace Checked

open Renderer (Request)

/-! ## The active engine -/

/-- An engine, found by its index. -/
def engineAt (e : Engine) : Checked Engine := item Engine.all (Engine.all.idxOf e)

def unconfigure (r : Renderer) : Checked Renderer := do
  match r.active with
  | some e => return (r.rest (← engineAt e)).forget
  | none => return r.forget

def configure (r : Renderer) (title : Title) : Checked Renderer := do
  let r ← unconfigure r
  match Engine.all.findIdx? (r.identifies title) with
  | some index => return (r.start title (← item Engine.all index)).1
  | none => return r

def loadCartridge (r : Renderer) (rom : ByteArray) : Checked Renderer := do
  let r ← unconfigure r
  match Title.ofHeader rom with
  | .ok title => configure r title
  | .error _ => return r

theorem engineAt_eq (e : Engine) : engineAt e = .ok e := by cases e <;> rfl

theorem unconfigure_eq (r : Renderer) : unconfigure r = .ok r.unconfigure.1 := by
  unfold unconfigure Renderer.unconfigure
  cases r.active with
  | none => rfl
  | some e =>
    dsimp only
    rw [engineAt_eq]
    rfl

theorem configure_eq (r : Renderer) (title : Title) : configure r title = .ok (r.configure title).2.1 := by
  unfold configure Renderer.configure Renderer.engineFor?
  rw [unconfigure_eq, ok_bind]
  dsimp only
  rw [List.find?_eq_bind_findIdx?_getElem?]
  cases found : Engine.all.findIdx? (r.unconfigure.1.identifies title) with
  | none => rfl
  | some index =>
    obtain ⟨lt, -⟩ := List.findIdx?_eq_some_iff_getElem.1 found
    have engine := List.getElem?_eq_getElem lt
    dsimp only
    rw [item_of_getElem? engine, Option.bind_some, engine]
    rfl

theorem loadCartridge_eq (r : Renderer) (rom : ByteArray) : loadCartridge r rom = .ok (r.loadCartridge rom).2.1 := by
  unfold loadCartridge Renderer.loadCartridge
  rw [unconfigure_eq, ok_bind]
  cases Title.ofHeader rom with
  | ok title => exact configure_eq _ title
  | error e => rfl

/-! ## Hits and commits -/

def runEngine (r : Renderer) (m : Machine) (pc : Address) : Engine → Checked (Renderer × Machine × List Event)
  | .v3d => do
    let (v3d, context, events) ← v3dHook r.v3d r.config r.context m pc
    return ({ r with v3d, context }, m, events)
  | .drome => do
    let o ← dromeHook r.drome r.context m pc
    return ({ r with drome := { r.drome with holes := o.holes }, context := o.context }, o.machine, o.events)
  | .downhillJam => do
    let (context, events) ← downhillJamHook r.downhillJam r.context m pc
    return ({ r with context }, m, events)

def onBreakpoint (r : Renderer) (m : Machine) (pc : Address) : Checked (Renderer × Machine × List Event) := do
  if r.context.breakpoints.contains pc then
    match r.active with
    | some e => runEngine r m pc (← engineAt e)
    | none => return (r, m, [])
  else return (r, m, [])

def commitAt (r : Renderer) (m : Machine) (index : Nat) : Checked Renderer := do
  return { r with context := ← commitFrame r.context m (← lift (Frame.ofIndex index)) }

section Hits

variable {r : Renderer} (sized : r.context.frames.Sized)

include sized

theorem runEngine_agrees (fits : Fits r.scale) (m : Machine) (pc : Address) (e : Engine) :
    Agrees (runEngine r m pc e) (r.runEngine m pc e) := by
  cases e with
  | v3d => exact (v3dHook_agrees sized fits r.v3d r.config m pc).bind fun _ _ => .pure _
  | drome => exact (dromeHook_agrees sized fits r.drome m pc).bind fun _ _ => .pure _
  | downhillJam => exact (downhillJamHook_agrees sized fits r.downhillJam m pc).bind fun _ _ => .pure _

theorem onBreakpoint_agrees (fits : Fits r.scale) (m : Machine) (pc : Address) :
    Agrees (onBreakpoint r m pc) (r.onBreakpoint m pc) := by
  unfold onBreakpoint Renderer.onBreakpoint
  split
  · cases r.active with
    | none => exact .pure _
    | some e =>
      dsimp only
      rw [engineAt_eq]
      exact runEngine_agrees sized fits m pc e
  · exact .pure _

theorem commitAt_agrees (m : Machine) {index : Nat} (valid : index < 2) :
    Agrees (commitAt r m index) (r.commit m index) := by
  obtain ⟨i, found⟩ := Frame.exists_ofIndex valid
  exact .lift_bind found ((commitFrame_agrees sized m i).bind fun _ _ => .pure _)

end Hits

/-! ## Runs -/

def step (r : Renderer) : Request → Checked Renderer
  | .configure title => configure r title
  | .loadCartridge rom => loadCartridge r rom
  | .unconfigure => unconfigure r
  | .setScale scale => return (r.setScale scale).2.1
  | .breakpoint m pc => do return (← onBreakpoint r m pc).1
  | .commit m index => commitAt r m index
  | .addBreakpoint a => return r.addBreakpoint a
  | .clearBreakpoints => return r.clearBreakpoints

def run (r : Renderer) : List Request → Checked Renderer
  | [] => return r
  | q :: requests => do run (← step r q) requests

theorem step_agrees {r : Renderer} (sound : r.Sound) (fits : Fits r.scale) {q : Request} (valid : q.IsValid) :
    Agrees (step r q) (r.step q) := by
  cases q with
  | configure title => exact ⟨_, rfl, configure_eq r title⟩
  | loadCartridge rom => exact ⟨_, rfl, loadCartridge_eq r rom⟩
  | unconfigure => exact ⟨_, rfl, unconfigure_eq r⟩
  | setScale | addBreakpoint | clearBreakpoints => exact .pure _
  | breakpoint m pc => exact (onBreakpoint_agrees sound.sized fits m pc).bind fun _ _ => .pure _
  | commit m index => exact commitAt_agrees sound.sized m valid

theorem run_agrees {r : Renderer} (sound : r.Sound) (fits : Fits r.scale) {requests : List Request}
    (valid : ∀ q ∈ requests, q.IsValid ∧ q.Fits) : Agrees (run r requests) (r.run requests) := by
  induction requests generalizing r with
  | nil => exact .pure r
  | cons q requests ih =>
    rw [List.forall_mem_cons] at valid
    obtain ⟨⟨frame, fitting⟩, rest⟩ := valid
    exact (step_agrees sound fits frame).bind fun next stepped =>
      ih (sound.step stepped) (sound.fits_step fits fitting stepped) rest

/-- **Requests never fail.** From any start whose pictures have dimensions of 32 bits, and whatever registers and memory the
machines have, a run returns and none of its accesses fails. It ends at the scale of the configuration, which is positive,
and the buffers of both frames have the size that this scale asks for. -/
theorem run_never_fails {start : Renderer} (initial : start.Initial) (fits : Fits start.scale) {requests : List Request}
    (valid : ∀ q ∈ requests, q.IsValid ∧ q.Fits) :
    Returns (start.run requests) fun r =>
      run start requests = .ok r ∧ 1 ≤ r.scale ∧ r.config.scale = r.scale ∧
      ∀ i : Frame,
        Returns (r.indexed i.toNat) (fun pixels => pixels.size = Screen.width * Screen.height * r.scale * r.scale) ∧
        Returns (r.color i.toNat) fun color => color.size = 4 * (Screen.width * Screen.height * r.scale * r.scale) := by
  obtain ⟨r, ran, checked⟩ := run_agrees initial.sound fits valid
  have sound := initial.sound.run ran
  refine ⟨r, ran, checked, sound.sized.pos, sound.scale.symm, fun i => ?_⟩
  have indexed := sound.sized.indexed i
  have color := sound.sized.color i
  cases i with
  | zero => exact ⟨.pure indexed, .pure color⟩
  | one => exact ⟨.pure indexed, .pure color⟩

/-- A game is drawn on a machine at rest, and its frame is committed at another scale. -/
theorem run_never_fails_racers :
    Renderer.default.Initial ∧ Fits Renderer.default.scale ∧ (∀ q ∈ Renderer.racersSession, q.IsValid ∧ q.Fits) ∧
      ∃ r, run .default Renderer.racersSession = .ok r ∧ 1 ≤ r.scale := by
  have initial : Renderer.default.Initial := .inl rfl
  have fits : Fits Renderer.default.scale := ⟨by decide, by decide⟩
  have valid : ∀ q ∈ Renderer.racersSession, q.IsValid ∧ q.Fits := fun q mem =>
    ⟨Renderer.racersSession_isValid q mem, Renderer.racersSession_fits q mem⟩
  obtain ⟨r, -, ran, pos, -⟩ := run_never_fails initial fits valid
  exact ⟨initial, fits, valid, r, ran, pos⟩

end Checked

end Redraw

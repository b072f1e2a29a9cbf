import Redraw.Proofs.Checked.Clip
import Redraw.Proofs.Checked.Commit
import Redraw.Proofs.Drome.Rasterize

/-!
# A checked pass over the primitive stream

Vertices, clip flags, textures and the positions of sprites come out of memory as they are, and so does the link to the next
record. Each record keeps the scale of the canvas, so on frames that fit their scale the whole walk finds the canvas that its
first record found, and the handler of the Drome engine returns what it returns unchecked (`dromeHook_agrees`).
-/

namespace Redraw.Checked

open Drome (Hole Holes Outcome Pass PrimitiveKind Punch Punched Record Scene Visibility)

/-! ## Holes -/

def punch (p : Punched) (sprite : UInt8) (x y : Int) : Checked (Punch × Punched) := do
  match ← pixel? p.canvas x y with
  | none => return (.missed, p)
  | some saved =>
    match p.holes.push? ⟨sprite, x, y, saved⟩ with
    | none => return (.full, p)
    | some holes => return (.saved saved, ⟨← setPixel p.canvas x y 0, holes⟩)

def fillIn (c : Canvas) (h : Hole) : Checked (Visibility × Canvas) := do
  if (← pixel? c h.x h.y) = some 0 then return (.visible, ← setPixel c h.x h.y h.saved)
  else return (.occluded, c)

def drainN : Nat → Punched → Checked (List (UInt8 × Visibility) × Punched)
  | 0, p => return ([], p)
  | n + 1, p =>
    match p.holes.pop? with
    | none => return ([], p)
    | some (hole, holes) => do
      let (visibility, canvas) ← fillIn p.canvas hole
      let (reports, rest) ← drainN n ⟨canvas, holes⟩
      return ((hole.sprite, visibility) :: reports, rest)

def drain (p : Pass) (scene : Scene) : Checked Pass := do
  let (reports, punched) ← drainN p.holes.size ⟨p.canvas, p.holes⟩
  return { p with
    canvas := punched.canvas
    holes := punched.holes
    machine := reports.foldl (fun m (sprite, visibility) => scene.setSpriteStatus m sprite visibility.code)
      p.machine }

theorem punch_eq (p : Punched) (sprite : UInt8) (x y : Int) : punch p sprite x y = .ok (p.punch sprite x y) := by
  unfold punch Punched.punch
  rw [pixel?_eq, ok_bind]
  cases p.canvas.pixel? x y with
  | none => rfl
  | some saved =>
    dsimp only
    cases p.holes.push? ⟨sprite, x, y, saved⟩ with
    | none => rfl
    | some holes =>
      dsimp only
      rw [setPixel_eq]
      rfl

theorem fillIn_eq (c : Canvas) (h : Hole) : fillIn c h = .ok (Punched.fillIn c h) := by
  unfold fillIn Punched.fillIn
  rw [pixel?_eq, ok_bind, setPixel_eq]
  split <;> rfl

theorem drainN_eq (n : Nat) (p : Punched) : drainN n p = .ok (Punched.drainN n p) := by
  induction n generalizing p with
  | zero => rfl
  | succ n ih =>
    unfold drainN Punched.drainN
    cases p.holes.pop? with
    | none => rfl
    | some top =>
      dsimp only
      rw [fillIn_eq, ok_bind, ih]
      rfl

theorem drain_eq (p : Pass) (scene : Scene) : drain p scene = .ok (p.drain scene) := by
  rw [drain, drainN_eq]
  rfl

/-! ## Records -/

def punchOccluder (p : Pass) (scene : Scene) (r : Record) : Checked Pass := do
  let index := r.spriteIndex p.machine
  let (x, y) := scene.spritePosition p.machine index
  if scene.containsPixel x y then
    let scale : Int := p.canvas.scale
    let (punch, punched) ← punch ⟨p.canvas, p.holes⟩ index (x * scale) (y * scale)
    let status := (punch.pixel?.map (·.toUInt16)).getD Visibility.outside.code
    let events := if punch = .full then p.events.push (.occlusionFull index) else p.events
    return ⟨punched.canvas, punched.holes, scene.setSpriteStatus p.machine index status, events⟩
  else return { p with machine := scene.setSpriteStatus p.machine index Visibility.outside.code }

def drawOn (p : Pass) (drawing : Canvas → Checked Canvas) : Checked Pass :=
  return { p with canvas := ← drawing p.canvas }

def drawPrimitive (p : Pass) (scene : Scene) (r : Record) : PrimitiveKind → Checked Pass
  | .flat => drawOn p (fillTriangle · (r.flatTriangle p.machine) (r.material p.machine))
  | .clippedFlat => do
    let color := r.material p.machine
    let clipped ← clip (r.flatTriangle p.machine) scene.viewport (r.clipFlags p.machine)
    let triangles ← fan clipped.polygon
    let p := (p.logDropped clipped.dropped).log (.clipped (clipped.polygon.join " "))
    drawOn p (triangles.foldlM (fillTriangle · · color) ·)
  | .affine =>
    let texture := scene.texture p.machine (r.material p.machine)
    drawOn p (fillAffineTriangle · (r.texturedTriangle p.machine) texture.texel)
  | .clippedAffine => do
    let texture := scene.texture p.machine (r.material p.machine)
    let clipped ← clip (r.texturedTriangle p.machine) scene.viewport (r.clipFlags p.machine)
    let triangles ← fan clipped.polygon
    drawOn (p.logDropped clipped.dropped) (triangles.foldlM (fillAffineTriangle · · texture.texel) ·)
  | .staticTextured | .clippedStaticTextured => return p.log .staticTextured
  | .occluder => punchOccluder p scene r

def drawRecord (p : Pass) (scene : Scene) (r : Record) : Checked Pass :=
  match PrimitiveKind.ofTag (r.tag p.machine) with
  | .ok kind => drawPrimitive (p.log (.primitive kind r.address)) scene r kind
  | .error e => return p.log (.primitiveSkipped e r.address)

theorem punchOccluder_eq (p : Pass) (scene : Scene) (r : Record) :
    punchOccluder p scene r = .ok (p.punchOccluder scene r) := by
  unfold punchOccluder Pass.punchOccluder
  -- The position stays a variable here: its numerals are too large to be computed with.
  obtain ⟨position, read⟩ : ∃ f, scene.spritePosition p.machine = f := ⟨_, rfl⟩
  rw [read]
  dsimp only
  rw [punch_eq]
  split <;> rfl

theorem drawOn_eq {p : Pass} {checked : Canvas → Checked Canvas} {drawing : Canvas → Canvas}
    (step : checked p.canvas = .ok (drawing p.canvas)) : drawOn p checked = .ok (p.draw drawing) := by
  rw [drawOn, step]
  rfl

section Records

variable {p : Pass} (fits : Fits p.canvas.scale)

include fits

theorem drawPrimitive_eq (scene : Scene) (r : Record) (kind : PrimitiveKind) :
    drawPrimitive p scene r kind = .ok (p.drawPrimitive scene r kind) := by
  cases kind with
  | flat =>
    rw [drawPrimitive, Pass.drawPrimitive]
    exact drawOn_eq (fillTriangle_eq fits _ _)
  | affine =>
    rw [drawPrimitive, Pass.drawPrimitive]
    exact drawOn_eq (fillAffineTriangle_eq fits _ _)
  | clippedFlat =>
    rw [drawPrimitive, Pass.drawPrimitive, clip_eq, ok_bind, fan_eq, ok_bind]
    refine drawOn_eq (foldlM_canvas (fun d t => d.scale_fillTriangle t _) fun d same t _ => ?_)
    rw [Pass.canvas_log, Pass.canvas_logDropped] at same
    exact fillTriangle_eq (same ▸ fits) _ _
  | clippedAffine =>
    rw [drawPrimitive, Pass.drawPrimitive, clip_eq, ok_bind, fan_eq, ok_bind]
    refine drawOn_eq (foldlM_canvas (fun d t => d.scale_fillAffineTriangle t _) fun d same t _ => ?_)
    rw [Pass.canvas_logDropped] at same
    exact fillAffineTriangle_eq (same ▸ fits) _ _
  | staticTextured | clippedStaticTextured => rfl
  | occluder => exact punchOccluder_eq p scene r

theorem drawRecord_eq (scene : Scene) (r : Record) : drawRecord p scene r = .ok (p.drawRecord scene r) := by
  unfold drawRecord Pass.drawRecord
  cases PrimitiveKind.ofTag (r.tag p.machine) with
  | ok kind => exact drawPrimitive_eq (p := p.log (.primitive kind r.address)) fits scene r kind
  | error e => rfl

end Records

/-! ## Passes -/

def walk (scene : Scene) : Nat → Record → Pass → Checked (Pass × Nat)
  | n, r, p =>
    if r.tag p.machine = 0 then return (p, 0)
    else
      match n with
      | 0 => return (p.log (.endlessStream scene.stream), 0)
      | n + 1 => do
        let p ← drawRecord p scene r
        let (p, count) ← walk scene n (r.next p.machine) p
        return (p, count + 1)

def pass (policy : Policy) (scene : Scene) (canvas : Canvas) (holes : Holes) (m : Machine) : Checked Pass := do
  let (p, count) ← walk scene Pass.maxRecords ⟨scene.stream⟩ ⟨canvas, holes, m, #[]⟩
  let p := p.log (.rasterized count scene.frame p.holes.size)
  let p := if policy.disableRasterizer then { p with machine := p.machine.writeByte scene.stream 0 } else p
  drain p scene

def rasterize (policy : Policy) (holes : Holes) (c : Context) (m : Machine) : Checked Outcome := do
  let scene := Scene.read m (m.register 0)
  let first : Record := ⟨scene.stream⟩
  let c := (c.clear scene.frame).setActive scene.frame (first.tag m != 0)
  let p ← pass policy scene (← lift (c.frames.canvas scene.frame)) holes m
  let c := { c with frames := c.frames.setCanvas scene.frame p.canvas }
  return ⟨p.holes, ← commitFrame c p.machine scene.frame, p.machine, p.events.toList⟩

theorem walk_eq (scene : Scene) (n : Nat) (r : Record) {p : Pass} (fits : Fits p.canvas.scale) :
    walk scene n r p = .ok (Pass.walk scene n r p) := by
  induction n generalizing r p with
  | zero =>
    unfold walk Pass.walk
    split <;> rfl
  | succ n ih =>
    unfold walk Pass.walk
    split
    · rfl
    · have kept : Fits (p.drawRecord scene r).canvas.scale := Pass.scale_drawRecord p scene r ▸ fits
      dsimp only
      rw [drawRecord_eq fits, ok_bind, ih _ kept]
      rfl

theorem pass_eq (policy : Policy) (scene : Scene) {canvas : Canvas} (fits : Fits canvas.scale) (holes : Holes)
    (m : Machine) : pass policy scene canvas holes m = .ok (Drome.pass policy scene canvas holes m) := by
  rw [pass, walk_eq scene Pass.maxRecords ⟨scene.stream⟩ (p := ⟨canvas, holes, m, #[]⟩) fits, ok_bind]
  exact drain_eq ..

theorem rasterize_agrees {c : Context} (sized : c.frames.Sized) (fits : Fits c.frames.scale) (policy : Policy)
    (holes : Holes) (m : Machine) : Agrees (rasterize policy holes c m) (Drome.rasterize policy holes c m) := by
  unfold rasterize Drome.rasterize
  extract_lets s first d
  have cleared := Context.evolves_clear sized s.frame
  have marked : (c.clear s.frame).Evolves d := Context.evolves_setActive cleared.frames.sized s.frame (first.tag m != 0)
  have canvas : d.frames.canvas s.frame = .ok (Canvas.blank c.frames.scale) := sized.canvas_clear s.frame (first.tag m != 0)
  refine .lift_bind canvas ?_
  have blank : Fits (Canvas.blank c.frames.scale).scale := fits
  rw [pass_eq policy s blank holes m, ok_bind]
  have scale := Drome.scale_pass policy s (Canvas.blank c.frames.scale) holes m
  have drawn := marked.frames.sized.setCanvas s.frame (scale.trans (cleared.trans marked).frames.scale.symm)
  exact (commitFrame_agrees drawn.sized _ _).bind fun _ _ => .pure _

/-! ## Hits on the trampoline -/

def runStage (e : Redraw.Drome) (a : Drome.Active) (c : Context) (m : Machine) : Checked Outcome :=
  let function := m.readWord a.profile.stage
  if function = a.profile.rasterize then rasterize a.policy e.holes c m
  else if function = a.profile.transform then
    if a.policy.hookTransform then
      let (m, events) := Drome.transform a.policy m
      return e.report c m events
    else return e.report c m []
  else return e.report c m [.notAStage function]

def dromeHook (e : Redraw.Drome) (c : Context) (m : Machine) (pc : Address) : Checked Outcome :=
  match e.active with
  | some a =>
    if a.profile.trampoline = pc then runStage e a c m
    else return e.report c m [.unhandledHook .drome pc]
  | none => return e.report c m [.unhandledHook .drome pc]

section Hook

variable {c : Context} (sized : c.frames.Sized) (fits : Fits c.frames.scale)

include sized fits

theorem runStage_agrees (e : Redraw.Drome) (a : Drome.Active) (m : Machine) :
    Agrees (runStage e a c m) (e.runStage a c m) := by
  unfold runStage Drome.runStage
  dsimp only
  split
  · exact rasterize_agrees sized fits a.policy e.holes m
  · split
    · split <;> exact .pure _
    · exact .pure _

theorem dromeHook_agrees (e : Redraw.Drome) (m : Machine) (pc : Address) :
    Agrees (dromeHook e c m pc) (e.hook c m pc) := by
  unfold dromeHook Drome.hook
  cases e.active with
  | some a =>
    dsimp only
    split
    · exact runStage_agrees sized fits e a m
    · exact .pure _
  | none => exact .pure _

end Hook

end Redraw.Checked

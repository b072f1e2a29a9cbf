import Redraw.Engine.Drome
import Redraw.Engine.DownhillJam
import Redraw.Engine.V3d
import Redraw.Proofs.Drome.Walk

/-!
# Handing out memory

A host may hand out the bytes of a region as a whole, and a view then reads them without asking the machine. What it
reads is the same (`View.read_ofAddress`), so no handler can tell whether it was handed out, with one exception: a
bitmap is only copied out of a region that is (`exposure_irrelevant`). For Drome a pass over the stream and what it
leaves behind are compared step by step, because the machine goes along.
-/

namespace Redraw

/-- The machine of a host that hands its memory out, or does not. -/
def Machine.exposing (m : Machine) (exposed : Bool) : Machine := { m with exposed }

namespace Machine

variable (m : Machine) (exposed : Bool)

theorem readByte_exposing (a : Address) : (m.exposing exposed).readByte a = m.readByte a := by
  unfold readByte
  rfl

theorem readHalf_exposing (a : Address) : (m.exposing exposed).readHalf a = m.readHalf a := by
  simp only [readHalf, readByte_exposing]

theorem readWord_exposing (a : Address) : (m.exposing exposed).readWord a = m.readWord a := by
  simp only [readWord, readByte_exposing]

end Machine

namespace View

theorem read_ofAddress (m : Machine) (a b : Address) : (ofAddress m a).read b = m.readByte b := by
  cases direct : (ofAddress m a).direct? b with
  | none =>
    rw [read, direct]
    rfl
  | some byte =>
    rw [read, direct, Option.getD_some]
    unfold direct? at direct
    split at direct
    · rename_i r bytes handed
      split at direct
      · rename_i region
        have taken : bytes = m.memory.bytes r := by
          simp only [ofAddress, Option.bind_eq_some_iff, Option.map_eq_some_iff, Prod.mk.injEq] at handed
          obtain ⟨r', -, bytes', out, rfl, rfl⟩ := handed
          unfold Machine.region? at out
          split at out
          · exact (Option.some.inj out).symm
          · cases out
        rw [Machine.readByte, Memory.read, region]
        dsimp only
        rw [← taken, direct]
        rfl
      · cases direct
    · cases direct

theorem read_exposing (m : Machine) (exposed : Bool) (a : Address) :
    (ofAddress (m.exposing exposed) a).read = (ofAddress m a).read := by
  funext b
  rw [read_ofAddress, read_ofAddress]
  rfl

end View

/-! ## Drawing through a view -/

namespace Canvas

variable {v w : View}

theorem fillTexturedTrapezoid_congr (same : v.read = w.read) (c : Canvas) (t : Trapezoid) (uv : TrapezoidUv)
    (texture : Address) : c.fillTexturedTrapezoid t uv texture v = c.fillTexturedTrapezoid t uv texture w := by
  simp only [fillTexturedTrapezoid, same]

theorem drawFixedSprite_congr (same : v.read = w.read) (c : Canvas) (s : FixedSprite) :
    c.drawFixedSprite s v = c.drawFixedSprite s w := by
  have texel : s.texel v = s.texel w := by
    funext x y
    simp only [FixedSprite.texel, same]
  simp only [drawFixedSprite, drawTexel, texel]

theorem drawStretchedSprite_congr (same : v.read = w.read) (c : Canvas) (s : StretchedSprite) :
    c.drawStretchedSprite s v = c.drawStretchedSprite s w := by
  have texel : s.texel v = s.texel w := by
    funext x y
    simp only [StretchedSprite.texel, same]
  have sample : s.sample v = s.sample w := by
    funext a x y
    simp only [StretchedSprite.sample, texel]
  have step : (fun (c : Canvas) (p : Int × Int) => c.drawSample s v p.1 p.2) = fun c p => c.drawSample s w p.1 p.2 := by
    funext c p
    simp only [drawSample, sample]
  rw [drawStretchedSprite, step, drawStretchedSprite]

end Canvas

theorem Context.commit_exposing (c : Context) (m : Machine) (exposed : Bool) (i : Frame) :
    c.commit (m.exposing exposed) i = c.commit m i := by
  simp only [commit, Palette.read, Machine.readHalf_exposing]

/-! ## V3D and Downhill Jam -/

namespace V3d

/-- A routine copies a bitmap out of a region as a whole. -/
def Routine.IsCopy : Routine → Prop
  | .copyScreen _ => True
  | _ => False

theorem drawFixed_exposing (config : Config) (c : Context) (m : Machine) (exposed : Bool) (back : Frame)
    (s : FixedSprite) : drawFixed config c (m.exposing exposed) back s = drawFixed config c m back s := by
  simp only [drawFixed, Canvas.drawFixedSprite_congr (View.read_exposing m exposed s.data)]

theorem drawStretched_exposing (config : Config) (c : Context) (m : Machine) (exposed : Bool) (back : Frame)
    (s : StretchedSprite) (color : Color) :
    drawStretched config c (m.exposing exposed) back s color = drawStretched config c m back s color := by
  simp only [drawStretched, Canvas.drawStretchedSprite_congr (View.read_exposing m exposed s.data)]

theorem perform_exposing {routine : Routine} (other : ¬routine.IsCopy) (config : Config) (c : Context) (m : Machine)
    (exposed : Bool) (front : Frame) :
    perform config c (m.exposing exposed) front routine = perform config c m front routine := by
  cases routine with
  | copyScreen => exact absurd trivial other
  | clearScreen | flip | flatTrapezoid | asterixMenuOverlay | asterixScroll => rfl
  | texturedTrapezoid a =>
    have view := View.read_exposing m exposed (m.register 11)
    change (do return (← (c.setActive front.other true).draw front.other (·.fillTexturedTrapezoid (trapezoid m) _ _
      (View.ofAddress (m.exposing exposed) (m.register 11))), [])) = _
    simp only [Canvas.fillTexturedTrapezoid_congr view]
    rfl
  | asterixPlayer mask =>
    change (do return (← drawFixed config c (m.exposing exposed) front.other (playerSprite m .yFirst .nibbles mask), []))
      = _
    rw [drawFixed_exposing]
    rfl
  | driv3rPlayer =>
    change (do return (← drawFixed config c (m.exposing exposed) front.other (playerSprite m .xFirst .bytes 0), [])) = _
    rw [drawFixed_exposing]
    rfl
  | asterixEnvironment => exact drawStretched_exposing config c m exposed front.other (environmentSprite m) _
  | asterixNpc => exact drawStretched_exposing config c m exposed front.other (npcSprite m) _
  | driv3rScaled => exact drawStretched_exposing config c m exposed front.other (driv3rSprite m) _

/-- An address at which a game copies a bitmap. -/
def CopiesAt (e : V3d) (pc : Address) : Prop :=
  ∃ game routine, e.state = .active game ∧ game.routineAt? pc = some routine ∧ routine.IsCopy

theorem hook_exposing {e : V3d} {pc : Address} (other : ¬e.CopiesAt pc) (config : Config) (c : Context) (m : Machine)
    (exposed : Bool) : e.hook config c (m.exposing exposed) pc = e.hook config c m pc := by
  unfold hook
  split
  · rfl
  · rfl
  · rename_i game active
    split
    · rename_i routine called
      have plain : ¬routine.IsCopy := fun copy => other ⟨game, routine, active, called, copy⟩
      simp only [run]
      rw [perform_exposing plain]
      rfl
    · rfl

end V3d

theorem DownhillJam.hook_exposing (e : DownhillJam) (c : Context) (m : Machine) (exposed : Bool) (pc : Address) :
    e.hook c (m.exposing exposed) pc = e.hook c m pc := rfl

/-! ## Drome -/

namespace Drome

namespace Record

variable (r : Record) (m : Machine) (exposed : Bool)

theorem tag_exposing : r.tag (m.exposing exposed) = r.tag m := by
  simp only [tag, Machine.readByte_exposing]

theorem next_exposing : r.next (m.exposing exposed) = r.next m := by
  simp only [next, Machine.readHalf_exposing]

theorem clipFlags_exposing : r.clipFlags (m.exposing exposed) = r.clipFlags m := by
  simp only [clipFlags, Machine.readByte_exposing]

theorem spriteIndex_exposing : r.spriteIndex (m.exposing exposed) = r.spriteIndex m := by
  simp only [spriteIndex, Machine.readByte_exposing]

theorem material_exposing : r.material (m.exposing exposed) = r.material m := by
  simp only [material, Machine.readByte_exposing]

theorem flatTriangle_exposing : r.flatTriangle (m.exposing exposed) = r.flatTriangle m := by
  simp only [flatTriangle, flatVertex, Machine.readWord_exposing]

theorem texturedTriangle_exposing : r.texturedTriangle (m.exposing exposed) = r.texturedTriangle m := by
  simp only [texturedTriangle, texturedVertex, Machine.readHalf_exposing]

end Record

namespace Scene

variable (s : Scene) (m : Machine) (exposed : Bool) (index : UInt8)

theorem read_exposing (a : Address) : read (m.exposing exposed) a = read m a := by
  simp only [read, Machine.readHalf_exposing, Machine.readWord_exposing]

theorem spritePosition_exposing : s.spritePosition (m.exposing exposed) index = s.spritePosition m index := by
  simp only [spritePosition, Machine.readHalf_exposing]

theorem texel_exposing : (s.texture (m.exposing exposed) index).texel = (s.texture m index).texel := by
  funext u v
  exact congrFun (View.read_exposing m exposed _) _

end Scene

namespace Pass

/-- The pass on the machine of a host that hands its memory out, or does not. -/
def exposing (p : Pass) (exposed : Bool) : Pass := { p with machine := p.machine.exposing exposed }

variable (p : Pass) (exposed : Bool) (s : Scene) (r : Record)

theorem machine_exposing : (p.exposing exposed).machine = p.machine.exposing exposed := rfl

theorem log_exposing (e : Event) : (p.exposing exposed).log e = (p.log e).exposing exposed := by
  unfold log
  rfl

theorem draw_exposing (drawing : Canvas → Canvas) :
    (p.exposing exposed).draw drawing = (p.draw drawing).exposing exposed := by
  unfold draw
  rfl

theorem logDropped_exposing (dropped : Nat) :
    (p.exposing exposed).logDropped dropped = (p.logDropped dropped).exposing exposed := by
  unfold logDropped
  induction dropped generalizing p with
  | zero => rfl
  | succ n ih => exact ih (p.log .clipOverflow)

theorem punchOccluder_exposing :
    (p.exposing exposed).punchOccluder s r = (p.punchOccluder s r).exposing exposed := by
  have sprite := r.spriteIndex_exposing p.machine exposed
  have position : s.spritePosition (p.machine.exposing exposed) = s.spritePosition p.machine :=
    funext (s.spritePosition_exposing p.machine exposed)
  unfold punchOccluder
  rw [machine_exposing, sprite, position]
  -- The position stays a variable while the two sides are compared: its numerals are too large to be computed with.
  obtain ⟨position, read⟩ : ∃ f, s.spritePosition p.machine = f := ⟨_, rfl⟩
  rw [read]
  dsimp only
  split <;> rfl

theorem drawPrimitive_exposing (kind : PrimitiveKind) :
    (p.exposing exposed).drawPrimitive s r kind = (p.drawPrimitive s r kind).exposing exposed := by
  cases kind with
  | flat =>
    simp only [drawPrimitive, machine_exposing, Record.flatTriangle_exposing, Record.material_exposing, draw_exposing]
  | staticTextured | clippedStaticTextured => rfl
  | clippedFlat =>
    simp only [drawPrimitive, machine_exposing, Record.flatTriangle_exposing, Record.material_exposing,
      Record.clipFlags_exposing, logDropped_exposing, log_exposing, draw_exposing]
  | affine =>
    simp only [drawPrimitive, machine_exposing, Record.texturedTriangle_exposing, Record.material_exposing,
      Scene.texel_exposing, draw_exposing]
  | clippedAffine =>
    simp only [drawPrimitive, machine_exposing, Record.texturedTriangle_exposing, Record.material_exposing,
      Record.clipFlags_exposing, Scene.texel_exposing, logDropped_exposing, draw_exposing]
  | occluder =>
    rw [drawPrimitive, drawPrimitive]
    exact punchOccluder_exposing p exposed s r

theorem drawRecord_exposing : (p.exposing exposed).drawRecord s r = (p.drawRecord s r).exposing exposed := by
  have tag : r.tag (p.exposing exposed).machine = r.tag p.machine := rfl
  cases kind : PrimitiveKind.ofTag (r.tag p.machine) with
  | ok kind =>
    rw [drawRecord_of_kind kind, drawRecord_of_kind (tag ▸ kind), log_exposing, drawPrimitive_exposing]
  | error e =>
    rw [drawRecord_of_error kind, drawRecord_of_error (tag ▸ kind), log_exposing]

theorem walk_exposing (n : Nat) :
    walk s n r (p.exposing exposed) = ((walk s n r p).1.exposing exposed, (walk s n r p).2) := by
  have tag (p : Pass) (r : Record) : r.tag (p.exposing exposed).machine = r.tag p.machine := rfl
  induction n generalizing r p with
  | zero =>
    by_cases stop : r.tag p.machine = 0
    · rw [walk_of_end stop, walk_of_end ((tag p r).trans stop)]
    · rw [walk_zero stop, walk_zero (tag p r ▸ stop), log_exposing]
  | succ n ih =>
    by_cases stop : r.tag p.machine = 0
    · rw [walk_of_end stop, walk_of_end ((tag p r).trans stop)]
    · rw [walk, walk, tag, if_neg stop, if_neg stop]
      simp only [drawRecord_exposing, machine_exposing, Record.next_exposing, ih]

theorem drain_exposing : (p.exposing exposed).drain s = (p.drain s).exposing exposed := by
  have stored (reports : List (UInt8 × Visibility)) (m : Machine) :
      reports.foldl (fun m report => s.setSpriteStatus m report.1 report.2.code) (m.exposing exposed) =
        (reports.foldl (fun m report => s.setSpriteStatus m report.1 report.2.code) m).exposing exposed :=
    List.foldl_hom (Machine.exposing · exposed) fun _ _ => rfl
  exact congrArg (fun m => { p.drain s with machine := m }) (stored _ p.machine)

end Pass

/-- What a stage leaves behind on the machine of a host that hands its memory out, or does not. -/
def Outcome.exposing (o : Outcome) (exposed : Bool) : Outcome := { o with machine := o.machine.exposing exposed }

theorem pass_exposing (policy : Policy) (s : Scene) (c : Canvas) (holes : Holes) (m : Machine) (exposed : Bool) :
    pass policy s c holes (m.exposing exposed) = (pass policy s c holes m).exposing exposed := by
  have walked : Pass.walk s Pass.maxRecords ⟨s.stream⟩ ⟨c, holes, m.exposing exposed, #[]⟩ = _ :=
    Pass.walk_exposing ⟨c, holes, m, #[]⟩ exposed s ⟨s.stream⟩ Pass.maxRecords
  unfold pass
  rw [walked]
  generalize Pass.walk s Pass.maxRecords ⟨s.stream⟩ ⟨c, holes, m, #[]⟩ = result
  let logged := result.1.log (.rasterized result.2 s.frame result.1.holes.size)
  cases policy.disableRasterizer with
  | true => exact Pass.drain_exposing { logged with machine := logged.machine.writeByte s.stream 0 } exposed s
  | false => exact Pass.drain_exposing logged exposed s

theorem rasterize_exposing (policy : Policy) (holes : Holes) (c : Context) (m : Machine) (exposed : Bool) :
    rasterize policy holes c (m.exposing exposed) = (rasterize policy holes c m).map (·.exposing exposed) := by
  have scene : Scene.read (m.exposing exposed) ((m.exposing exposed).register 0) = Scene.read m (m.register 0) :=
    Scene.read_exposing m exposed _
  unfold rasterize
  simp only [scene, Record.tag_exposing, pass_exposing]
  generalize Scene.read m (m.register 0) = s
  cases ((c.clear s.frame).setActive s.frame ((⟨s.stream⟩ : Record).tag m != 0)).frames.canvas s.frame with
  | error e => rfl
  | ok canvas =>
    simp only [bind, Except.bind, Pass.exposing, Context.commit_exposing]
    generalize Context.commit _ _ _ = committed
    cases committed <;> rfl

theorem Position.read_exposing (m : Machine) (exposed : Bool) (a : Address) :
    Position.read (m.exposing exposed) a = Position.read m a := by
  simp only [Position.read, Machine.readWord_exposing]

theorem SceneObject.walk_exposing (m : Machine) (exposed : Bool) (n : Nat) (a : Address) :
    SceneObject.walk (m.exposing exposed) n a = SceneObject.walk m n a := by
  induction n generalizing a with
  | zero => rfl
  | succ n ih => simp only [walk, read, Position.read_exposing, Machine.readWord_exposing, ih]

theorem transform_exposing (policy : Policy) (m : Machine) (exposed : Bool) :
    transform policy (m.exposing exposed) = ((transform policy m).1.exposing exposed, (transform policy m).2) := by
  have scene : Scene.read (m.exposing exposed) ((m.exposing exposed).register 0) = Scene.read m (m.register 0) :=
    Scene.read_exposing m exposed _
  simp only [transform, scene, SceneObject.list, SceneObject.walk_exposing, cameraPosition, Position.read_exposing,
    Machine.readWord_exposing, Prod.mk.injEq, and_true]
  cases policy.disableTransform <;> rfl

theorem hook_exposing (e : Drome) (c : Context) (m : Machine) (exposed : Bool) (pc : Address) :
    e.hook c (m.exposing exposed) pc = (e.hook c m pc).map (·.exposing exposed) := by
  unfold hook
  split
  · rename_i a active
    split
    · simp only [runStage, Machine.readWord_exposing, rasterize_exposing, transform_exposing]
      generalize m.readWord a.profile.stage = function
      split
      · rfl
      · split
        · split <;> rfl
        · rfl
    · rfl
  · rfl

end Drome

/-! ## Every handler -/

/-- **Handing memory out changes no result.** A view reads what the machine reads, whatever the machine holds and
wherever the view starts. So a hit on any address does the same to an engine, to the context and to the machine, and
reports the same, whether the host hands its memory out or not, unless V3D copies a bitmap there. -/
theorem exposure_irrelevant (m : Machine) :
    (∀ a b, (View.ofAddress m a).read b = m.readByte b) ∧
    (∀ (e : V3d) config c pc,
      e.CopiesAt pc ∨ e.hook config c (m.exposing true) pc = e.hook config c (m.exposing false) pc) ∧
    (∀ (e : Drome) c pc,
      (e.hook c (m.exposing true) pc).map (·.exposing false) = e.hook c (m.exposing false) pc) ∧
    ∀ (e : DownhillJam) c pc, e.hook c (m.exposing true) pc = e.hook c (m.exposing false) pc := by
  refine ⟨fun a b => View.read_ofAddress m a b, fun e config c pc => ?_, fun e c pc => ?_, fun e c pc => ?_⟩
  · refine (Classical.em (e.CopiesAt pc)).imp_right fun other => ?_
    rw [V3d.hook_exposing other, V3d.hook_exposing other]
  · exact (e.hook_exposing c (m.exposing true) false pc).symm
  · rw [e.hook_exposing, e.hook_exposing]

end Redraw

import Redraw.Proofs.Drome.Stream
import Redraw.Proofs.Drome.Viewport

/-!
# Triangles that need no clipping

A clipped triangle takes another way to the picture than a plain one: through the passes along the sides of the viewport
and the fan of what they leave. A triangle inside every side that its flags name comes out of the passes as it went in, and
its fan is the triangle itself (`Triangle.fan_clip_of_holds`). So both ways lead to the same picture
(`Pass.clipped_agrees_plain`), and they differ in their reports only.
-/

namespace Redraw.Drome

namespace Pass

/-- Draws a record as one with the given tag. -/
def drawAs (p : Pass) (scene : Scene) (r : Record) (tag : UInt8) : Pass :=
  match PrimitiveKind.ofTag tag with
  | .ok kind => (p.log (.primitive kind r.address)).drawPrimitive scene r kind
  | .error e => p.log (.primitiveSkipped e r.address)

variable {p : Pass} {s : Scene} {r : Record}

/-- A walk draws every record as one with the tag that it has. -/
theorem drawRecord_eq_drawAs (p : Pass) (s : Scene) (r : Record) :
    p.drawRecord s r = p.drawAs s r (r.tag p.machine) := rfl

theorem drawAs_alike {tag : UInt8} {kind : PrimitiveKind} (h : PrimitiveKind.ofTag tag = .ok kind) (p : Pass) (s : Scene)
    (r : Record) : (p.drawAs s r tag).Alike (p.drawPrimitive s r kind) := by
  rw [drawAs, h]
  exact (Alike.log p _).symm.drawPrimitive r kind

/-- Primitives other than occluders are told apart by the picture alone. -/
theorem alike_drawPrimitive {kind kind' : PrimitiveKind} (other : kind ≠ .occluder) (other' : kind' ≠ .occluder)
    (canvas : (p.drawPrimitive s r kind').canvas = (p.drawPrimitive s r kind).canvas) :
    (p.drawPrimitive s r kind).Alike (p.drawPrimitive s r kind') := by
  obtain ⟨machine, holes, -⟩ := drawPrimitive_of_ne other p s r
  obtain ⟨machine', holes', -⟩ := drawPrimitive_of_ne other' p s r
  exact ⟨canvas, holes'.trans holes.symm, machine'.trans machine.symm⟩

theorem canvas_clippedFlat_of_holds
    (holds : Polygon.Holds s.viewport (r.clipFlags p.machine) (r.flatTriangle p.machine).vertices) :
    (p.drawPrimitive s r .clippedFlat).canvas = (p.drawPrimitive s r .flat).canvas := by
  rw [canvas_drawPrimitive_clippedFlat, Triangle.fan_clip_of_holds holds, List.foldl_cons, List.foldl_nil,
    canvas_drawPrimitive_flat]

theorem canvas_clippedAffine_of_holds
    (holds : Polygon.Holds s.viewport (r.clipFlags p.machine) (r.texturedTriangle p.machine).vertices) :
    (p.drawPrimitive s r .clippedAffine).canvas = (p.drawPrimitive s r .affine).canvas := by
  rw [canvas_drawPrimitive_clippedAffine, Triangle.fan_clip_of_holds holds, List.foldl_cons, List.foldl_nil,
    canvas_drawPrimitive_affine]

end Pass

/-- **Clipping that cuts nothing.** On every machine and picture, a record with all vertices inside the sides that its flags
name is drawn by its clipped tag as by its plain one: tag 4 as tag 1 and tag 6 as tag 3. Both fill the triangle of the record
in the picture, and leave the holes and the machine as they are. -/
theorem Pass.clipped_agrees_plain (p : Pass) (s : Scene) (r : Record) :
    (Polygon.Holds s.viewport (r.clipFlags p.machine) (r.flatTriangle p.machine).vertices →
        (p.drawAs s r 1).Alike (p.drawAs s r 4) ∧
          (p.drawAs s r 1).Alike (p.draw (·.fillTriangle (r.flatTriangle p.machine) (r.material p.machine)))) ∧
      (Polygon.Holds s.viewport (r.clipFlags p.machine) (r.texturedTriangle p.machine).vertices →
        (p.drawAs s r 3).Alike (p.drawAs s r 6) ∧
          (p.drawAs s r 3).Alike (p.draw (·.fillAffineTriangle (r.texturedTriangle p.machine)
            (s.texture p.machine (r.material p.machine)).texel))) := by
  refine ⟨fun holds => ?flat, fun holds => ?textured⟩
  case flat =>
    have plain : (p.drawAs s r 1).Alike (p.drawPrimitive s r .flat) := drawAs_alike rfl p s r
    have clipped : (p.drawAs s r 4).Alike (p.drawPrimitive s r .clippedFlat) := drawAs_alike rfl p s r
    have same := alike_drawPrimitive (by decide) (by decide) (canvas_clippedFlat_of_holds holds)
    exact ⟨plain.trans (same.trans clipped.symm), plain⟩
  case textured =>
    have plain : (p.drawAs s r 3).Alike (p.drawPrimitive s r .affine) := drawAs_alike rfl p s r
    have clipped : (p.drawAs s r 6).Alike (p.drawPrimitive s r .clippedAffine) := drawAs_alike rfl p s r
    have same := alike_drawPrimitive (by decide) (by decide) (canvas_clippedAffine_of_holds holds)
    exact ⟨plain.trans (same.trans clipped.symm), plain⟩

/-! A viewport of one column and two rows, and a record whose triangles lie in its clip rectangle, plain and textured. -/

namespace Inner

def cartridge : ByteArray :=
  ⟨#[0, 0, 0, 0, 0, 0, 0, 0, 0, 0, 0, 0, 0, 0, 0, 0, 0, 0, 0, 0, 0, 0, 0, 0, 0, 0, 0, 0, 0, 0, 0, 0,
    0, 0, 0, 0, 1, 0, 2, 0, 4, 15, 0, 0, 0, 0, 0, 0, 0, 0, 0, 7, 8, 0, 8, 0, 12, 0, 8, 0, 12, 0, 16, 0,
    0, 0, 0, 0, 8, 0, 16, 0, 3, 0, 5, 0]⟩

def machine : Machine := .withCartridge cartridge true

def scene : Scene := Scene.read machine 0x08000000

def record : Record := ⟨0x08000028⟩

theorem viewport : scene.viewport = ⟨4, 4, 12, 20⟩ := by decide

theorem flags : record.clipFlags machine = .all := by decide

theorem flatTriangle : record.flatTriangle machine = ⟨.flat 8 8, .flat 12 8, .flat 12 16⟩ := by decide

theorem texturedTriangle :
    record.texturedTriangle machine = ⟨⟨8, 8, 12, 8⟩, ⟨12, 16, 0, 0⟩, ⟨8, 16, 3, 5⟩⟩ := by
  decide

end Inner

theorem Pass.clipped_agrees_plain_inner :
    let p : Pass := ⟨.blank 2, .empty, Inner.machine, #[]⟩
    let flat := (Inner.record.flatTriangle p.machine).vertices
    let textured := (Inner.record.texturedTriangle p.machine).vertices
    Polygon.Holds Inner.scene.viewport .all flat ∧ Polygon.Holds Inner.scene.viewport .all textured ∧
      (p.drawAs Inner.scene Inner.record 1).Alike (p.drawRecord Inner.scene Inner.record) ∧
      (p.drawAs Inner.scene Inner.record 3).Alike (p.drawAs Inner.scene Inner.record 6) := by
  intro p flat textured
  have inFlat : Polygon.Holds Inner.scene.viewport .all flat := by
    rw [Inner.viewport, show flat = _ from congrArg Triangle.vertices Inner.flatTriangle, Polygon.holds_all_iff]
    decide
  have inTextured : Polygon.Holds Inner.scene.viewport .all textured := by
    rw [Inner.viewport, show textured = _ from congrArg Triangle.vertices Inner.texturedTriangle, Polygon.holds_all_iff]
    decide
  have tag : Inner.record.tag Inner.machine = 4 := by decide
  obtain ⟨plain, affine⟩ := Pass.clipped_agrees_plain p Inner.scene Inner.record
  rw [show Inner.record.clipFlags p.machine = .all from Inner.flags] at plain affine
  rw [Pass.drawRecord_eq_drawAs, show Inner.record.tag p.machine = 4 from tag]
  exact ⟨inFlat, inTextured, (plain inFlat).1, (affine inTextured).1⟩

end Redraw.Drome

import Redraw.Geometry.Clip
import Redraw.Machine
import Redraw.Error

/-!
# Records of the primitive stream

| offset | size | content                                             |
|--------|------|-----------------------------------------------------|
| 0      | 1    | tag, zero at the end of the stream                  |
| 1      | 1    | clip flags                                          |
| 2      | 2    | next record, an offset inside the same 64 KiB bank  |
| 8      | 1    | sprite index, for occluders                         |
| 11     | 1    | color or texture index                              |
| 12     |      | vertices                                            |

A flat triangle packs each vertex into one word, `y` in the upper half. A textured one has four half words per
vertex: `x`, `y`, `u` and `v`. All of them are in eighths.
-/

namespace Redraw.Drome

/-- What a record draws. -/
inductive PrimitiveKind where
  | flat
  | staticTextured
  | affine
  | clippedFlat
  | clippedStaticTextured
  | clippedAffine
  | occluder
  deriving DecidableEq, Repr, Inhabited

namespace PrimitiveKind

def ofTag : UInt8 → Except Error PrimitiveKind
  | 1 => .ok .flat
  | 2 => .ok .staticTextured
  | 3 => .ok .affine
  | 4 => .ok .clippedFlat
  | 5 => .ok .clippedStaticTextured
  | 6 => .ok .clippedAffine
  | 7 => .ok .occluder
  | tag => .error (.unknownPrimitive tag)

def text : PrimitiveKind → String
  | .flat => "FlatTriangle"
  | .staticTextured => "StaticTexturedTriangle"
  | .affine => "AffineTriangle"
  | .clippedFlat => "ClippedFlatTriangle"
  | .clippedStaticTextured => "ClippedStaticTexturedTriangle"
  | .clippedAffine => "ClippedAffineTriangle"
  | .occluder => "SpriteOccluder"

end PrimitiveKind

/-- A record, known by its address and read when needed. -/
structure Record where
  address : Address
  deriving DecidableEq, Repr, Inhabited

namespace Record

/-- The tag, zero at the end of the stream. -/
def tag (r : Record) (m : Machine) : UInt8 := m.readByte r.address

/-- The record after this one, in the same bank. -/
def next (r : Record) (m : Machine) : Record :=
  ⟨(r.address &&& 0xFFFF0000) ||| (m.readHalf (r.address + 2)).toUInt32⟩

def clipFlags (r : Record) (m : Machine) : ClipFlags := ⟨m.readByte (r.address + 1) &&& ClipFlags.all.bits⟩

def spriteIndex (r : Record) (m : Machine) : UInt8 := m.readByte (r.address + 8)

/-- The color of a flat triangle, the texture index of a textured one. -/
def material (r : Record) (m : Machine) : UInt8 := m.readByte (r.address + 11)

/-- Vertex `i` of a flat triangle. -/
def flatVertex (r : Record) (m : Machine) (i : UInt32) : Vertex :=
  let packed := m.readWord (r.address + (12 + 4 * i))
  .flat (signed16 (lowerHalf packed)) (signed16 (upperHalf packed))

def flatTriangle (r : Record) (m : Machine) : Triangle :=
  ⟨r.flatVertex m 0, r.flatVertex m 1, r.flatVertex m 2⟩

/-- Vertex `i` of a textured triangle. -/
def texturedVertex (r : Record) (m : Machine) (i : UInt32) : Vertex :=
  let first := r.address + (12 + 8 * i)
  ⟨signed16 (m.readHalf first), signed16 (m.readHalf (first + 2)), signed16 (m.readHalf (first + 4)),
    signed16 (m.readHalf (first + 6))⟩

def texturedTriangle (r : Record) (m : Machine) : Triangle :=
  ⟨r.texturedVertex m 0, r.texturedVertex m 1, r.texturedVertex m 2⟩

end Record

end Redraw.Drome

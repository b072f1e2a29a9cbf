import Redraw.Geometry.Clip
import Redraw.Machine.View
import Redraw.Canvas.Affine
import Redraw.Screen

/-!
# The scene

Both stages of the pipeline receive the address of a scene in the first register.

| offset | content                                                  |
|--------|----------------------------------------------------------|
| 0      | nine half words, the rotation of the camera              |
| 20     | three words, the position of the camera                  |
| 32     | four half words, the viewport: x, y, width, height       |
| 40     | pointer to the first object                              |
| 56     | pointer to the primitive stream                          |
| 60     | pointer to the frame that is drawn                       |
| 64     | pointer to the table of textures, each 64 × 64 bytes     |
| 96     | sprite parameters, 8 bytes each                          |
-/

namespace Redraw.Drome

/-- What the rasterizer needs of a scene. -/
structure Scene where
  address : Address
  stream : Address
  drawBuffer : Address
  textures : Address
  /-- The viewport in pixels, right and bottom exclusive. -/
  left : Int
  top : Int
  right : Int
  bottom : Int
  deriving DecidableEq, Repr, Inhabited

namespace Scene

def read (m : Machine) (a : Address) : Scene :=
  let half (offset : UInt32) : Int := (m.readHalf (a + offset)).toNat
  { address := a
    stream := m.readWord (a + 56)
    drawBuffer := m.readWord (a + 60)
    textures := m.readWord (a + 64)
    left := half 32
    top := half 34
    right := half 32 + half 36
    bottom := half 34 + half 38 }

def frame (s : Scene) : Frame := if s.drawBuffer = Screen.frame0Address then .zero else .one

/-- The clip rectangle in eighths of a pixel. It runs through the centers of the first pixel and of the one past
the last. -/
def viewport (s : Scene) : Viewport :=
  ⟨s.left * 8 + 4, s.top * 8 + 4, s.right * 8 + 4, s.bottom * 8 + 4⟩

def containsPixel (s : Scene) (x y : Int) : Bool :=
  s.left ≤ x && x < s.right && s.top ≤ y && y < s.bottom

def objectsPointer (s : Scene) : Address := s.address + 40

/-! ## Sprites -/

def spriteAddress (s : Scene) (index : UInt8) : Address := s.address + 96 + index.toUInt32 * 8

def spritePosition (s : Scene) (m : Machine) (index : UInt8) : Int × Int :=
  let a := s.spriteAddress index
  (signed16 (m.readHalf (a + 2)), signed16 (m.readHalf (a + 4)))

/-- Tells the game about a sprite. -/
def setSpriteStatus (s : Scene) (m : Machine) (index : UInt8) (status : UInt16) : Machine :=
  m.writeHalf (s.spriteAddress index + 6) status

/-! ## Textures -/

def textureSize : Int := 64

/-- A texture of the table. It repeats in both directions. -/
structure SceneTexture where
  base : Address
  view : View

namespace SceneTexture

def texel (t : SceneTexture) (u v : Int) : UInt8 :=
  t.view.read (t.base + addressOf (v % textureSize * textureSize + u % textureSize))

end SceneTexture

def texture (s : Scene) (m : Machine) (index : UInt8) : SceneTexture :=
  let base := m.readWord (s.textures + index.toUInt32 * 4)
  ⟨base, View.ofAddress m base⟩

end Scene

/-! ## The camera and the objects -/

structure Position where
  x : Int
  y : Int
  z : Int
  deriving DecidableEq, Repr, Inhabited

namespace Position

def read (m : Machine) (a : Address) : Position :=
  ⟨signed32 (m.readWord a), signed32 (m.readWord (a + 4)), signed32 (m.readWord (a + 8))⟩

def text (p : Position) : String := s!"[{p.x}, {p.y}, {p.z}]"

end Position

/-- The camera of the scene at an address. -/
def cameraPosition (m : Machine) (scene : Address) : Position := Position.read m (scene + 20)

/-- Entry `(row, column)` of the rotation of the camera, with twelve fraction bits. -/
def cameraRotation (m : Machine) (scene : Address) (row column : Fin 3) : Int :=
  signed16 (m.readHalf (scene + UInt32.ofNat ((row.val * 3 + column.val) * 2)))

structure SceneObject where
  address : Address
  model : Address
  position : Position
  deriving DecidableEq, Repr, Inhabited

namespace SceneObject

def maxCount : Nat := 1024

def read (m : Machine) (a : Address) : SceneObject := ⟨a, m.readWord (a + 20), Position.read m (a + 24)⟩

/-- The objects of the linked list from an address on, up to a null link and at most `n` of them. -/
def walk (m : Machine) : Nat → Address → List SceneObject
  | 0, _ => []
  | n + 1, a => if a = 0 then [] else read m a :: walk m n (m.readWord (a + 36))

/-- The objects of the list that begins at `first`. -/
def list (m : Machine) (first : Address) : List SceneObject := walk m maxCount first

end SceneObject

end Redraw.Drome

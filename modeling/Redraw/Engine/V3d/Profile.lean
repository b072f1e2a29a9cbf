import Redraw.Title
import Redraw.Word

/-!
# Titles of the V3D engine

The engine draws with a handful of routines. Every game keeps them at its own addresses, so a game is described
by the routines at its addresses and the memory operands that are not passed in registers. A cartridge with
several games shows a menu first.
-/

namespace Redraw.V3d

/-- Where a textured fill keeps its texture coordinates between calls. -/
structure UvAddresses where
  left : Address
  right : Address
  leftDelta : Address
  rightDelta : Address
  deriving DecidableEq, Repr, Inhabited

inductive Routine where
  | clearScreen
  /-- Copies the bitmap that the word at `pointer` points to into the back frame. -/
  | copyScreen (pointer : Address)
  /-- Writes the display control register. -/
  | flip
  /-- Fills a trapezoid with the color stored at an address. -/
  | flatTrapezoid (color : Address)
  | texturedTrapezoid (uv : UvAddresses)
  /-- A sprite of packed texels whose parameters hold `y` before `x`. -/
  | asterixPlayer (mask : UInt8)
  /-- A stretched sprite over a texture of 256 bytes a row. -/
  | asterixEnvironment
  /-- A stretched sprite of packed texels with its own stride and bank. -/
  | asterixNpc
  /-- A pause or menu screen over the 3D view. -/
  | asterixMenuOverlay
  /-- A scroll of the background, which rewrites the back frame as a bitmap. -/
  | asterixScroll
  /-- A sprite of whole bytes whose parameters hold `x` before `y`. -/
  | driv3rPlayer
  | driv3rScaled
  deriving DecidableEq, Repr, Inhabited

namespace Routine

def text : Routine → String
  | .clearScreen => "ClearScreen"
  | .copyScreen pointer => "CopyScreen \x7b source: " ++ toString pointer ++ " \x7d"
  | .flip => "FlipBuffers"
  | .flatTrapezoid color => "ColoredTrapezoid \x7b color: " ++ toString color ++ " \x7d"
  | .texturedTrapezoid uv =>
    "TexturedTrapezoid(TrapezoidUvAddresses \x7b left: " ++ toString uv.left ++ ", right: "
      ++ toString uv.right ++ ", left_delta: " ++ toString uv.leftDelta ++ ", right_delta: "
      ++ toString uv.rightDelta ++ " \x7d)"
  | .asterixPlayer mask => "AsterixPlayerSprite \x7b palette_mask: " ++ toString mask ++ " \x7d"
  | .asterixEnvironment => "AsterixEnvironmentSprite"
  | .asterixNpc => "AsterixNpcSprite"
  | .asterixMenuOverlay => "AsterixMenuOverlay"
  | .asterixScroll => "AsterixScrollCopy"
  | .driv3rPlayer => "Driv3rPlayerSprite"
  | .driv3rScaled => "Driv3rScaledSprite"

end Routine

structure Game where
  name : String
  titles : List Title
  /-- The byte that is not zero while frame one is in front. -/
  activeFrame : Address
  routines : List (Address × Routine)
  deriving DecidableEq, Repr, Inhabited

namespace Game

def routineAt? (g : Game) (pc : Address) : Option Routine := g.routines.lookup pc

/-- The addresses of the routines, in the order of the table. -/
def addresses (g : Game) : List Address := g.routines.map (·.1)

end Game

/-- What a title stands for. -/
inductive Profile where
  | game (game : Game)
  /-- A menu: the game is known once `address` is reached, with the choice in the first register. Choice zero is
  `primary`, no other choice is supported. -/
  | menu (name : String) (titles : List Title) (address : Address) (primary : Profile)
  deriving DecidableEq, Repr

namespace Profile

def name : Profile → String
  | .game g => g.name
  | .menu name .. => name

def titles : Profile → List Title
  | .game g => g.titles
  | .menu _ titles .. => titles

end Profile

/-! ## The supported games -/

/-- The routines of both editions of the Asterix game, which differ in the place of the menu overlay. -/
def asterixRoutines (menuOverlay : Address) : List (Address × Routine) :=
  [(0x03004198, .clearScreen),
    (0x03006834, .copyScreen 0x03006A00),
    (0x030075B8, .flip),
    (0x030044E8, .flatTrapezoid 0x03004708),
    (0x03004940, .texturedTrapezoid ⟨0x03004734, 0x03004738, 0x0300472C, 0x03004730⟩),
    (0x03005E0C, .asterixPlayer 0x00),
    (0x03005F98, .asterixPlayer 0x10),
    (0x03006144, .asterixEnvironment),
    (0x03006328, .asterixNpc),
    (menuOverlay, .asterixMenuOverlay),
    (0x030068C4, .asterixScroll),
    (0x03006934, .asterixScroll)]

/-- The Asterix game on a cartridge of its own. -/
def asterix : Game where
  name := "Asterix & Obelix XXL"
  titles := [.ofChars 'B' 'L' 'X' 'P']
  activeFrame := 0x0203DC1B
  routines := asterixRoutines 0x0805C5F0

/-- The same game on a cartridge with two games, where it sits at another offset. -/
def asterix2in1 : Game where
  name := "Asterix & Obelix XXL (2 in 1)"
  titles := [.ofChars 'B' '2' 'A' 'P']
  activeFrame := 0x0203DC1B
  routines := asterixRoutines 0x0885F8F0

/-- The Driv3r game, whose fills of textured trapezoids are two routines. -/
def driv3r : Game where
  name := "Driv3r"
  titles := [.ofChars 'B' '3' 'R' 'P', .ofChars 'B' '3' 'R' 'E']
  activeFrame := 0x0203AB41
  routines :=
    [(0x03004984, .clearScreen),
      (0x03004A98, .copyScreen 0x03004B2C),
      (0x030078C0, .flip),
      (0x03004CA8, .flatTrapezoid 0x03004ED8),
      (0x03005454, .texturedTrapezoid ⟨0x03005B3C, 0x03005B40, 0x03005B34, 0x03005B38⟩),
      (0x03005CCC, .texturedTrapezoid ⟨0x030061DC, 0x030061E0, 0x030061D4, 0x030061D8⟩),
      (0x030063D4, .driv3rPlayer),
      (0x030061E4, .driv3rScaled)]

/-- The supported games, in the order in which a title is looked up. -/
def games : List Game := [asterix, asterix2in1, driv3r]

end Redraw.V3d

import Redraw.Bounded
import Redraw.Canvas

/-!
# Occlusion

A sprite is behind the scene if something was drawn over its position. To find out, a hole is punched into the
picture there: the pixel is saved and zeroed. When the scene is drawn the holes are filled in again, the newest
first. A hole that is still zero gets its pixel back, and the sprite is visible.
-/

namespace Redraw.Drome

/-- What a game is told about a sprite. -/
inductive Visibility where
  /-- Something was drawn over the position. -/
  | occluded
  /-- The position is outside of the viewport. -/
  | outside
  /-- Nothing was drawn over the position. -/
  | visible
  deriving DecidableEq, Repr

def Visibility.code : Visibility → UInt16
  | .occluded => 0
  | .outside => 1
  | .visible => 2

structure Hole where
  sprite : UInt8
  x : Int
  y : Int
  /-- The pixel that was there. -/
  saved : UInt8
  deriving DecidableEq, Repr, Inhabited

def holeCapacity : Nat := 32

abbrev Holes := Bounded holeCapacity Hole

/-- What became of an attempt to punch a hole. -/
inductive Punch where
  /-- The position is not on the picture. -/
  | missed
  /-- As many holes are open as there can be. -/
  | full
  /-- The hole is open, and this pixel was there. -/
  | saved (pixel : UInt8)
  deriving DecidableEq, Repr

def Punch.pixel? : Punch → Option UInt8
  | .saved pixel => some pixel
  | _ => none

structure Punched where
  canvas : Canvas
  holes : Holes

namespace Punched

def punch (p : Punched) (sprite : UInt8) (x y : Int) : Punch × Punched :=
  match p.canvas.pixel? x y with
  | none => (.missed, p)
  | some saved =>
    match p.holes.push? ⟨sprite, x, y, saved⟩ with
    | none => (.full, p)
    | some holes => (.saved saved, ⟨p.canvas.setPixel x y 0, holes⟩)

/-- Fills a hole in: a zero gets its pixel back. -/
def fillIn (c : Canvas) (h : Hole) : Visibility × Canvas :=
  if c.pixel? h.x h.y = some 0 then (.visible, c.setPixel h.x h.y h.saved) else (.occluded, c)

/-- Fills the given number of holes in, the newest first, and reports on each of them. -/
def drainN : Nat → Punched → List (UInt8 × Visibility) × Punched
  | 0, p => ([], p)
  | n + 1, p =>
    match p.holes.pop? with
    | none => ([], p)
    | some (hole, holes) =>
      let (visibility, canvas) := fillIn p.canvas hole
      let (reports, rest) := drainN n ⟨canvas, holes⟩
      ((hole.sprite, visibility) :: reports, rest)

/-- Fills all holes in, the newest first, and reports on each of them. -/
def drain (p : Punched) : List (UInt8 × Visibility) × Punched := drainN p.holes.size p

end Punched

end Redraw.Drome

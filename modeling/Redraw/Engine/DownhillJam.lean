import Redraw.Engine.Context

/-!
# The Downhill Jam engine

The slopes are flat regions: a routine fills rows between two edges with fifteen fraction bits, which wrap around
as words do. Edges are stretched with the picture and move by the same amount per output row at every scale.
-/

namespace Redraw

namespace DownhillJam

def titles : List Title := [.ofChars 'B' 'X' 'S' 'P', .ofChars 'B' 'X' 'S' 'E']

/-- The routine that clears a frame. -/
def clearAddress : Address := 0x030007A0

/-- The write of the display control register. -/
def flipAddress : Address := 0x08003536

/-- The routine that fills a region. -/
def fillAddress : Address := 0x0300227C

def addresses : List Address := [clearAddress, flipAddress, fillAddress]

/-- The frame that a pointer into video RAM falls in. -/
def frameOf (pointer : Address) : Frame :=
  if pointer < Screen.frame0Address + Screen.frameSize then .zero else .one

structure Area where
  /-- The first row of the region, a pointer into a frame. -/
  destination : Address
  /-- The number of logical rows. -/
  height : Int
  left : Int
  right : Int
  leftDelta : Int
  rightDelta : Int
  color : UInt8
  deriving DecidableEq, Repr

/-- The edges of a region in one of its output rows, with fifteen fraction bits. -/
structure Edges where
  left : Int
  right : Int
  deriving DecidableEq, Repr

namespace Area

/-- The region in the registers: `r0` and `r1` the edges, `r7` and `r8` their movements per row, `r4` the color in
its second byte, `r5` the first row, `r6` the number of rows. -/
def ofRegisters (m : Machine) : Area where
  destination := m.register 5
  height := signed32 (m.register 6)
  left := signed32 (m.register 0)
  right := signed32 (m.register 1)
  leftDelta := signed32 (m.register 7)
  rightDelta := signed32 (m.register 8)
  color := (m.register 4 >>> 8).toUInt8

def top (a : Area) (scale : Nat) : Int := Screen.rowOf a.destination * scale

/-- The edges in the first output row. -/
def firstEdges (a : Area) (scale : Nat) : Edges := ⟨wrap32 (a.left * scale), wrap32 (a.right * scale)⟩

/-- The edges one output row further down. -/
def moveEdges (a : Area) (e : Edges) : Edges := ⟨wrap32 (e.left + a.leftDelta), wrap32 (e.right + a.rightDelta)⟩

/-- Fills row `y` of the region, counted from its first one, between two edges. The number of a row is a word as well. -/
def fillRow (a : Area) (c : Canvas) (y : Nat) (e : Edges) : Canvas :=
  let left := max (e.left / 0x8000) 0
  let right := min (e.right / 0x8000) c.width
  if left < right then c.fillSpan (wrap32 (a.top c.scale + y)) left right a.color else c

/-- Fills `n` rows from row `y` on and moves the edges along. -/
def fillRows (a : Area) (c : Canvas) (y : Nat) (e : Edges) : Nat → Canvas
  | 0 => c
  | n + 1 => a.fillRows (a.fillRow c y e) (y + 1) (a.moveEdges e) n

/-- The number of output rows, at most what a word counts. -/
def rows (a : Area) (scale : Nat) : Nat := (saturate32 (a.height * scale)).toNat

/-- The number of output rows that begin above the bottom of a picture. The rows below leave the picture as it is. -/
def rowsAbove (a : Area) (scale : Nat) : Nat :=
  min (a.rows scale) ((Screen.height * scale : Nat) - a.top scale).toNat

def fill (a : Area) (c : Canvas) : Canvas := a.fillRows c 0 (a.firstEdges c.scale) (a.rowsAbove c.scale)

end Area

end DownhillJam

structure DownhillJam where
  active : Bool
  deriving DecidableEq, Repr

namespace DownhillJam

def idle : DownhillJam := ⟨false⟩

def identifies (title : Title) : Bool := titles.contains title

def init (c : Context) (title : Title) : DownhillJam × Context × List Event :=
  (⟨true⟩, c.armAll addresses, [.downhillJamActive title])

def hook (e : DownhillJam) (c : Context) (m : Machine) (pc : Address) :
    Except Fault (Context × List Event) := do
  if !e.active then return (c, [.unhandledHook .downhillJam pc])
  else if pc = clearAddress then
    let frame := frameOf (m.register 0)
    return ((c.setActive frame false).clear frame, [.clearScreen frame])
  else if pc = flipAddress then c.flip m (lowerHalf (m.register 0))
  else if pc = fillAddress then
    let area := Area.ofRegisters m
    let frame := frameOf area.destination
    return (← (c.setActive frame true).draw frame area.fill, [])
  else return (c, [.unhandledHook .downhillJam pc])

end DownhillJam

end Redraw

import Redraw.Engine.V3d
import Redraw.Proofs.Engine.Rows
import Redraw.Proofs.Frames

/-!
# Hits on armed addresses

On frames that fit their scale the handlers of the V3D and the Downhill Jam engine always return, whatever the machine
holds, and leave the armed addresses alone. At an address that they armed they have a handler for it
(`V3d.hook_returns`, `DownhillJam.hook_returns`).
-/

namespace Redraw

/-- What every handler leaves behind: a context that evolved, and reports on something that it handles. -/
def Handles (c : Context) (left : Context × List Event) : Prop := c.Evolves left.1 ∧ Event.AllHandled left.2

namespace Context

theorem flip_returns {c : Context} (sized : c.frames.Sized) (m : Machine) (control : UInt16) :
    Returns (c.flip m control) (Handles c) := by
  unfold flip
  dsimp only
  split
  · have marked := evolves_setActive sized (Frame.ofBit (control >>> 4 &&& 1 == 1)).other false
    exact (commit_returns marked.frames.sized m _).bind fun d committed =>
      .pure ⟨marked.trans committed, Event.allHandled_cons id Event.allHandled_nil⟩
  · exact .pure ⟨⟨rfl, sized.deactivateAll⟩, Event.allHandled_cons id Event.allHandled_nil⟩

theorem draw_setActive_returns {c : Context} {drawing : Canvas → Canvas} (sized : c.frames.Sized) (i : Frame)
    (scale : ∀ d, (drawing d).scale = d.scale) : Returns ((c.setActive i true).draw i drawing) c.Evolves := by
  have marked := evolves_setActive sized i true
  exact (draw_returns marked.frames.sized i scale).mono fun d drawn => marked.trans drawn

end Context

namespace V3d

variable {c : Context}

theorem drawFixed_returns (sized : c.frames.Sized) (config : Config) (m : Machine) (back : Frame) (s : FixedSprite) :
    Returns (drawFixed config c m back s) c.Evolves := by
  have marked := Context.evolves_setActive sized back true
  have outlined := Context.evolves_outline marked.frames.sized config ⟨s.x, s.y, s.width, s.height, playerColor⟩
  exact (Context.draw_returns outlined.frames.sized back fun d => d.scale_drawFixedSprite s _).mono fun d drawn =>
    (marked.trans outlined).trans drawn

theorem drawStretched_returns (sized : c.frames.Sized) (config : Config) (m : Machine) (back : Frame)
    (s : StretchedSprite) (color : Color) : Returns (drawStretched config c m back s color) (Handles c) := by
  have marked := Context.evolves_setActive sized back true
  have outlined := Context.evolves_outline marked.frames.sized config
    ⟨s.left, s.top, saturate32 (s.right - s.left), saturate32 (s.bottom - s.top), color⟩
  refine (Context.draw_returns outlined.frames.sized back fun d => d.scale_drawStretchedSprite s _).bind
    fun d drawn => .pure ⟨(marked.trans outlined).trans drawn, ?_⟩
  unfold offScreenEvents
  split
  · exact Event.allHandled_cons id Event.allHandled_nil
  · exact Event.allHandled_nil

/-- A bitmap is a part of work or internal RAM. -/
theorem screenBitmap_eq_ok_iff {m : Machine} {a : Address} {bitmap : ByteArray} :
    screenBitmap m a = .ok bitmap ↔ ∃ r bytes, (r = .workRam ∨ r = .internalRam) ∧ Region.ofAddress? a = some r ∧
      m.region? r = some bytes ∧ Bytes.slice? bytes (r.offset a) Screen.area = some bitmap := by
  unfold screenBitmap
  -- The number of pixels stays a variable while the matches are opened: its numeral is too large to be computed with.
  obtain ⟨area, pixels⟩ : ∃ area, area = Screen.area := ⟨_, rfl⟩
  rw [← pixels]
  constructor
  · intro read
    split at read
    · rename_i r region
      split at read
      · rename_i copied
        split at read
        · rename_i bytes handed
          split at read
          · rename_i slice
            obtain rfl := Except.ok.inj read
            exact ⟨r, bytes, copied, region, handed, slice⟩
          · cases read
        · cases read
      · cases read
    · cases read
  · rintro ⟨r, bytes, copied, region, handed, slice⟩
    simp only [region, if_pos copied, handed, slice]

theorem size_screenBitmap {m : Machine} {a : Address} {bitmap : ByteArray} (h : screenBitmap m a = .ok bitmap) :
    bitmap.size = Screen.area := by
  obtain ⟨_, _, _, _, _, slice⟩ := screenBitmap_eq_ok_iff.1 h
  exact Bytes.size_of_slice? slice

theorem copyScreen_returns (sized : c.frames.Sized) (m : Machine) (back : Frame) (source : Address) :
    Returns (copyScreen c m back source) (Handles c) := by
  unfold copyScreen
  cases read : screenBitmap m source with
  | error e => exact .pure ⟨Context.evolves_refl sized, Event.allHandled_cons id Event.allHandled_nil⟩
  | ok bitmap =>
    obtain ⟨canvas, copied, scale⟩ := Canvas.blit_of_size (c := ⟨c.frames.scale, _, sized.indexed back⟩) sized.pos
      (size_screenBitmap read)
    dsimp only
    rw [sized.canvas_eq]
    refine Returns.bind (P := fun d => d.blit bitmap = .ok canvas) ⟨_, rfl, copied⟩ fun d copied => ?_
    rw [copied]
    exact .pure ⟨⟨rfl, sized.setCanvas back scale⟩, Event.allHandled_cons id Event.allHandled_nil⟩

theorem perform_returns (sized : c.frames.Sized) (config : Config) (m : Machine) (front : Frame) (routine : Routine) :
    Returns (perform config c m front routine) (Handles c) := by
  have nothing {x : Except Fault Context} (drawn : Returns x c.Evolves) :
      Returns (do return (← x, [])) (Handles c) := drawn.bind fun d evolved => .pure ⟨evolved, Event.allHandled_nil⟩
  have mark (i : Frame) := Context.evolves_setActive sized i false
  cases routine with
  | clearScreen =>
    have marked := mark front.other
    exact .pure ⟨marked.trans (Context.evolves_clear marked.frames.sized front.other), Event.allHandled_nil⟩
  | copyScreen pointer =>
    have marked := mark front.other
    exact (copyScreen_returns marked.frames.sized m front.other _).mono fun d left =>
      ⟨marked.trans left.1, left.2⟩
  | flip => exact Context.flip_returns sized m _
  | flatTrapezoid color =>
    exact nothing (Context.draw_setActive_returns sized front.other fun d => d.scale_fillTrapezoid ..)
  | texturedTrapezoid a =>
    exact nothing (Context.draw_setActive_returns sized front.other fun d => d.scale_fillTexturedTrapezoid ..)
  | asterixPlayer mask => exact nothing (drawFixed_returns sized config m front.other _)
  | driv3rPlayer => exact nothing (drawFixed_returns sized config m front.other _)
  | asterixEnvironment => exact drawStretched_returns sized config m front.other _ _
  | asterixNpc => exact drawStretched_returns sized config m front.other _ _
  | driv3rScaled => exact drawStretched_returns sized config m front.other _ _
  | asterixMenuOverlay => exact .pure ⟨mark front, Event.allHandled_nil⟩
  | asterixScroll => exact .pure ⟨mark front.other, Event.allHandled_nil⟩

theorem lookup_of_mem {pc : Address} {routines : List (Address × Routine)} (mem : pc ∈ routines.map (·.1)) :
    ∃ routine, routines.lookup pc = some routine := by
  induction routines with
  | nil => cases mem
  | cons entry routines ih =>
    obtain ⟨a, routine⟩ := entry
    rw [List.lookup_cons]
    by_cases first : pc = a
    · exact ⟨routine, by simp [first]⟩
    · obtain ⟨routine', found⟩ := ih ((List.mem_cons.1 mem).resolve_left first)
      exact ⟨routine', by rw [beq_eq_false_iff_ne.2 first]; exact found⟩

/-- A hit returns while a game is drawn, and it is handled at the addresses of the game. -/
theorem hook_returns {e : V3d} {game : Game} (active : e.state = .active game) (sized : c.frames.Sized)
    (config : Config) (m : Machine) (pc : Address) :
    Returns (e.hook config c m pc) fun left =>
      left.1 = e ∧ c.Evolves left.2.1 ∧ (pc ∈ game.addresses → Event.AllHandled left.2.2) := by
  unfold hook
  rw [active]
  dsimp only
  cases called : game.routineAt? pc with
  | some routine =>
    refine Returns.bind (P := Handles c) ?_ fun left handled => .pure ⟨rfl, handled.1, fun _ => handled.2⟩
    exact (perform_returns sized config m _ routine).bind fun left handled =>
      .pure ⟨handled.1, Event.allHandled_cons id handled.2⟩
  | none =>
    refine .pure ⟨rfl, Context.evolves_refl sized, fun mem => ?_⟩
    obtain ⟨routine, found⟩ := lookup_of_mem mem
    rw [Game.routineAt?, found] at called
    cases called

end V3d

namespace DownhillJam

theorem hook_returns {c : Context} (sized : c.frames.Sized) (e : DownhillJam) (m : Machine) (pc : Address) :
    Returns (e.hook c m pc) fun left =>
      c.Evolves left.1 ∧ (e.active = true → pc ∈ addresses → Event.AllHandled left.2) := by
  have same := Context.evolves_refl sized
  unfold hook
  split
  · rename_i idle
    refine .pure ⟨same, fun active => ?_⟩
    simp [active] at idle
  · split
    · have marked := Context.evolves_setActive sized (frameOf (m.register 0)) false
      exact .pure ⟨marked.trans (Context.evolves_clear marked.frames.sized _),
        fun _ _ => Event.allHandled_cons id Event.allHandled_nil⟩
    · split
      · exact (Context.flip_returns sized m _).mono fun left handled => ⟨handled.1, fun _ _ => handled.2⟩
      · split
        · have filled := Context.draw_setActive_returns sized (frameOf (Area.ofRegisters m).destination)
            fun d => d.scale_fillArea (Area.ofRegisters m)
          exact filled.bind fun d drawn => .pure ⟨drawn, fun _ _ => Event.allHandled_nil⟩
        · rename_i clear flip fill
          refine .pure ⟨same, fun _ mem => ?_⟩
          simp [addresses, clear, flip, fill] at mem

end DownhillJam

end Redraw

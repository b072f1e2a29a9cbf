import Redraw.Proofs.Renderer.Requests

/-!
# Configuring forgets all history

Whatever a host asked of a renderer, configuring it for a title gives the same renderer, down to the last byte of the
frames, as configuring one that was just made with the present configuration (`configure_forgets`).
-/

namespace Redraw

theorem Title.ofHeader_cases (rom : ByteArray) :
    (∃ title, ofHeader rom = .ok title) ∨ ofHeader rom = .error (.romTooShort rom.size) := by
  unfold ofHeader
  split
  · exact .inl ⟨_, rfl⟩
  · exact .inr rfl

namespace Renderer

variable {r : Renderer}

theorem loadCartridge_error {rom : ByteArray} {e : Error} (failed : (r.loadCartridge rom).1 = .error e) :
    Title.ofHeader rom = .error e ∧ e = .romTooShort rom.size := by
  unfold loadCartridge at failed
  rcases Title.ofHeader_cases rom with ⟨title, header⟩ | header
  · rw [header] at failed
    cases failed
  · rw [header] at failed ⊢
    cases failed
    exact ⟨rfl, rfl⟩

theorem fresh_of_unsupported {config : Config} {title : Title}
    (unsupported : ((ofConfig config).engineFor? title).isSome = false) : fresh config title = ofConfig config := by
  unfold fresh
  rw [Option.isSome_eq_false_iff, Option.isNone_iff_eq_none] at unsupported
  rw [unsupported]

/-- **Configuring forgets all history.** After any requests, configuring for a title gives the renderer, and the answer,
that a new renderer with the present configuration gives. That new renderer is what is left when no engine draws the
title, or when a cartridge has no header. -/
theorem configure_forgets {start : Renderer} (initial : Initial start) {requests : List Request}
    (ran : start.run requests = .ok r) :
    ∃ rested, new r.config = .ok rested ∧
      (∀ title, (r.configure title).2.1 = (rested.configure title).2.1 ∧
        (r.configure title).1 = (rested.configure title).1) ∧
      (∀ title, (r.configure title).1 = false → (r.configure title).2.1 = rested) ∧
      (∀ rom e, (r.loadCartridge rom).1 = .error e →
        e = .romTooShort rom.size ∧ (r.loadCartridge rom).2.1 = rested) ∧
      ∀ rom title, Title.ofHeader rom = .ok title → (r.loadCartridge rom).2.1 = (rested.configure title).2.1 := by
  have sound := initial.sound.run ran
  have here := configure_of_unconfigure sound.unconfigure_eq
  have there := configure_of_unconfigure (unconfigure_ofConfig sound.pos)
  refine ⟨ofConfig r.config, new_of_pos sound.pos, fun title => ?_, fun title unsupported => ?_, fun rom e failed => ?_,
    fun rom title header => ?_⟩
  · exact ⟨(here title).1.trans (there title).1.symm, (here title).2.trans (there title).2.symm⟩
  · rw [(here title).2] at unsupported
    rw [(here title).1, fresh_of_unsupported unsupported]
  · obtain ⟨header, short⟩ := loadCartridge_error failed
    rw [sound.loadCartridge_eq, header]
    exact ⟨short, rfl⟩
  · rw [sound.loadCartridge_eq, header, (there title).1]

/-- The title of another engine is loaded after a session in which the host armed an address of its own. -/
theorem configure_forgets_racers :
    ∃ r rested, Initial default ∧ default.run (.addBreakpoint 0x08000000 :: racersSession) = .ok r ∧
      new r.config = .ok rested ∧
      (r.configure (.ofChars 'B' 'L' 'X' 'P')).2.1 = (rested.configure (.ofChars 'B' 'L' 'X' 'P')).2.1 := by
  have initial : Initial default := .inl rfl
  have valid : ∀ q ∈ .addBreakpoint 0x08000000 :: racersSession, q.IsValid :=
    List.forall_mem_cons.2 ⟨trivial, racersSession_isValid⟩
  obtain ⟨r, ran, -⟩ := initial.sound.run_returns valid
  obtain ⟨rested, started, same, -⟩ := configure_forgets initial ran
  exact ⟨r, rested, initial, ran, started, (same _).1⟩

end Renderer

end Redraw

import Redraw.Event
import Redraw.Fault

/-!
# What calls leave behind

A call either faults or returns something; a property of what it returns is proved along its steps (`Returns.bind`, and
`Leaves.bind` where it does not matter that the call returns).
What a handler reports is checked for calls at addresses that no engine armed (`Event.AllHandled`).
-/

namespace Redraw

/-- A call returns, and what it returns has a property. -/
def Returns {α : Type} (x : Except Fault α) (P : α → Prop) : Prop := ∃ a, x = .ok a ∧ P a

namespace Returns

variable {α β : Type} {x : Except Fault α} {f : α → Except Fault β} {P P' : α → Prop} {Q : β → Prop}

theorem pure {a : α} (h : P a) : Returns (.ok a) P := ⟨a, rfl, h⟩

theorem bind (first : Returns x P) (rest : ∀ a, P a → Returns (f a) Q) : Returns (x >>= f) Q := by
  obtain ⟨a, rfl, h⟩ := first
  exact rest a h

theorem mono (h : Returns x P) (weaker : ∀ a, P a → P' a) : Returns x P' := by
  obtain ⟨a, returned, h⟩ := h
  exact ⟨a, returned, weaker a h⟩

end Returns

/-- Whatever a call returns has a property. -/
def Leaves {α : Type} (x : Except Fault α) (P : α → Prop) : Prop := ∀ a, x = .ok a → P a

namespace Leaves

variable {α β : Type} {x : Except Fault α} {f : α → Except Fault β} {P P' : α → Prop} {Q : β → Prop}

theorem pure {a : α} (h : P a) : Leaves (.ok a) P := by
  intro b returned
  cases returned
  exact h

theorem bind (first : Leaves x P) (rest : ∀ a, P a → Leaves (f a) Q) : Leaves (x >>= f) Q := by
  intro b returned
  cases called : x with
  | error e =>
    rw [called] at returned
    cases returned
  | ok a =>
    rw [called] at returned
    exact rest a (first a called) b returned

theorem mono (h : Leaves x P) (weaker : ∀ a, P a → P' a) : Leaves x P' := fun a returned => weaker a (h a returned)

theorem and (h : Leaves x P) (more : Leaves x P') : Leaves x fun a => P a ∧ P' a :=
  fun a returned => ⟨h a returned, more a returned⟩

end Leaves

theorem Returns.and {α : Type} {x : Except Fault α} {P Q : α → Prop} (h : Returns x P) (more : Leaves x Q) :
    Returns x fun a => P a ∧ Q a := by
  obtain ⟨a, returned, holds⟩ := h
  exact ⟨a, returned, holds, more a returned⟩

namespace Event

/-- The event reports a call at an address that no engine armed. -/
def IsUnhandled : Event → Prop
  | .unhandledHook .. => True
  | _ => False

/-- None of the events reports a call at an address that no engine armed. -/
def AllHandled (events : List Event) : Prop := ∀ e ∈ events, ¬e.IsUnhandled

theorem allHandled_nil : AllHandled [] := fun _ mem => nomatch mem

theorem allHandled_cons {e : Event} {events : List Event} (h : ¬e.IsUnhandled) (rest : AllHandled events) :
    AllHandled (e :: events) := List.forall_mem_cons.2 ⟨h, rest⟩

theorem allHandled_append {events more : List Event} (first : AllHandled events) (rest : AllHandled more) :
    AllHandled (events ++ more) := List.forall_mem_append.2 ⟨first, rest⟩

end Event

end Redraw

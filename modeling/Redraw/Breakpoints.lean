import Redraw.Word

/-!
# Breakpoints

The addresses that a host has to trap on, in the order in which they were armed and each at most once.
-/

namespace Redraw

structure Breakpoints where
  addresses : List Address
  deriving DecidableEq, Repr, Inhabited

namespace Breakpoints

def none : Breakpoints := ⟨[]⟩

def contains (b : Breakpoints) (a : Address) : Bool := b.addresses.contains a

/-- Arms an address, after those that are armed already. -/
def add (b : Breakpoints) (a : Address) : Breakpoints :=
  if b.contains a then b else ⟨b.addresses ++ [a]⟩

/-- Arms the addresses of a list, one after the other. -/
def addAll (b : Breakpoints) (as : List Address) : Breakpoints := as.foldl add b

end Breakpoints

end Redraw

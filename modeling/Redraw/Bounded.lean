/-!
# Stacks of a fixed capacity

A bounded stack owns `capacity` slots and fills them from the first on. Slots past the size keep whatever was
there before, and no operation shows them: the view of a stack is `toList`, its elements oldest first. Pushing
on a full stack is refused, never an eviction.
-/

namespace Redraw

/-- A stack of at most `capacity` elements in `capacity` slots. -/
structure Bounded (capacity : Nat) (α : Type) where
  /-- The storage; only the first `size` slots hold elements. -/
  slots : Vector α capacity
  size : Nat
  size_le : size ≤ capacity

namespace Bounded

variable {capacity : Nat} {α : Type}

def empty [Inhabited α] : Bounded capacity α := ⟨Vector.replicate capacity default, 0, Nat.zero_le _⟩

instance [Inhabited α] : Inhabited (Bounded capacity α) := ⟨empty⟩

/-- The elements, oldest first. -/
def toList (s : Bounded capacity α) : List α := s.slots.toList.take s.size

def isEmpty (s : Bounded capacity α) : Bool := s.size == 0

def isFull (s : Bounded capacity α) : Bool := s.size == capacity

/-- The stack with `x` on top, nothing when it is full. -/
def push? (s : Bounded capacity α) (x : α) : Option (Bounded capacity α) :=
  if h : s.size < capacity then some ⟨s.slots.set s.size x, s.size + 1, h⟩ else none

/-- The top element and the stack below it, nothing when there is none. -/
def pop? (s : Bounded capacity α) : Option (α × Bounded capacity α) :=
  if h : 0 < s.size then
    have := s.size_le
    some (s.slots[s.size - 1], ⟨s.slots, s.size - 1, by omega⟩)
  else none

def clear (s : Bounded capacity α) : Bounded capacity α := ⟨s.slots, 0, Nat.zero_le _⟩

/-- The texts of the elements, oldest first, with `separator` between neighbours. -/
def join [ToString α] (s : Bounded capacity α) (separator : String) : String :=
  separator.intercalate (s.toList.map toString)

/-! ## The view -/

@[simp]
theorem toList_empty [Inhabited α] : (empty : Bounded capacity α).toList = [] := by
  simp [empty, toList]

@[simp]
theorem length_toList (s : Bounded capacity α) : s.toList.length = s.size := by
  have := s.size_le
  simp [toList]
  omega

@[simp]
theorem toList_clear (s : Bounded capacity α) : s.clear.toList = [] := by
  simp [clear, toList]

theorem push?_eq_none_iff (s : Bounded capacity α) (x : α) : s.push? x = none ↔ s.size = capacity := by
  have := s.size_le
  simp [push?]
  omega

theorem toList_push? {s t : Bounded capacity α} {x : α} (h : s.push? x = some t) :
    t.toList = s.toList ++ [x] := by
  unfold push? at h
  split at h
  · cases h
    rename_i lt
    have lt' : s.size < s.slots.toList.length := by simpa using lt
    simp only [toList, Vector.toList_set, List.take_add_one, List.take_set_of_le (Nat.le_refl _)]
    simp [lt]
  · cases h

theorem pop?_eq_none_iff (s : Bounded capacity α) : s.pop? = none ↔ s.size = 0 := by
  simp [pop?]

theorem toList_of_pop? {s t : Bounded capacity α} {x : α} (h : s.pop? = some (x, t)) :
    s.toList = t.toList ++ [x] := by
  unfold pop? at h
  split at h
  · rename_i pos
    cases h
    have le := s.size_le
    obtain ⟨k, hk⟩ : ∃ k, s.size = k + 1 := ⟨s.size - 1, by omega⟩
    have lt : k < capacity := by omega
    simp only [toList, hk, Nat.add_sub_cancel, List.take_add_one]
    simp [lt]
  · cases h

end Bounded

end Redraw

import Mathlib.Algebra.Order.Group.Multiset
import Redraw.Bounded

/-!
# Stacks of a fixed capacity are short lists

A stack keeps the slots of elements that were popped or cleared away. Its list of elements alone decides how it answers
(`listAct_toList`), whatever the slots past its size hold, and so it does along every run (`listRun_toList`). No element is
seen twice for one push: what a run shows at its end and what it pops are elements that were there or were pushed, each
once (`subperm_run`). The main statement is `behaves_as_list`.
-/

namespace Redraw.Bounded

/-! ## Runs -/

inductive Action (α : Type) where
  | push (x : α)
  | pop
  | clear
  deriving DecidableEq, Repr

inductive Answer (α : Type) where
  | pushed
  /-- The stack is full, and the element is given back. -/
  | full (x : α)
  | top (x? : Option α)
  | cleared
  deriving DecidableEq, Repr

variable {α : Type} {capacity : Nat}

def act (s : Bounded capacity α) : Action α → Answer α × Bounded capacity α
  | .push x =>
    match s.push? x with
    | some t => (.pushed, t)
    | none => (.full x, s)
  | .pop =>
    match s.pop? with
    | some (x, t) => (.top (some x), t)
    | none => (.top none, s)
  | .clear => (.cleared, s.clear)

/-- The same for a list of at most `capacity` elements, the last one on top. -/
def listAct (capacity : Nat) (l : List α) : Action α → Answer α × List α
  | .push x => if l.length < capacity then (.pushed, l ++ [x]) else (.full x, l)
  | .pop => (.top l.getLast?, l.dropLast)
  | .clear => (.cleared, [])

def run (s : Bounded capacity α) : List (Action α) → List (Answer α) × Bounded capacity α
  | [] => ([], s)
  | a :: actions => ((s.act a).1 :: ((s.act a).2.run actions).1, ((s.act a).2.run actions).2)

def listRun (capacity : Nat) (l : List α) : List (Action α) → List (Answer α) × List α
  | [] => ([], l)
  | a :: actions =>
    let later := listRun capacity (listAct capacity l a).2 actions
    ((listAct capacity l a).1 :: later.1, later.2)

def Action.pushed : Action α → List α
  | .push x => [x]
  | .pop | .clear => []

def Answer.popped : Answer α → List α
  | .top x? => x?.toList
  | .pushed | .full _ | .cleared => []

/-- The elements that are to be pushed. -/
def pushes (actions : List (Action α)) : List α := actions.flatMap Action.pushed

/-- The elements that are given back by pops. -/
def pops (answers : List (Answer α)) : List α := answers.flatMap Answer.popped

/-! ## The view -/

/-- All that is seen of a stack is what is seen of a list. -/
structure Shows (s : Bounded capacity α) (l : List α) : Prop where
  toList_eq : s.toList = l
  size_eq : s.size = l.length
  isEmpty_iff : s.isEmpty = true ↔ l = []
  isFull_iff : s.isFull = true ↔ l.length = capacity
  join_eq [ToString α] (separator : String) : s.join separator = separator.intercalate (l.map toString)

theorem shows_toList (s : Bounded capacity α) : s.Shows s.toList where
  toList_eq := rfl
  size_eq := (length_toList s).symm
  isEmpty_iff := by rw [isEmpty, beq_iff_eq, ← length_toList, List.length_eq_zero_iff]
  isFull_iff := by rw [isFull, beq_iff_eq, length_toList]
  join_eq _ := rfl

/-- A stack answers as its elements do, whatever the other slots hold. -/
theorem listAct_toList (s : Bounded capacity α) (a : Action α) :
    listAct capacity s.toList a = ((s.act a).1, (s.act a).2.toList) := by
  cases a with
  | push x =>
    cases h : s.push? x with
    | none =>
      have full := (push?_eq_none_iff s x).1 h
      rw [listAct, if_neg (by rw [length_toList]; omega)]
      simp only [act, h]
    | some t =>
      have room : s.size < capacity := by
        have size := congrArg List.length (toList_push? h)
        have le := t.size_le
        rw [List.length_append, length_toList, length_toList, List.length_singleton] at size
        omega
      rw [listAct, if_pos (by rwa [length_toList]), ← toList_push? h]
      simp only [act, h]
  | pop =>
    cases h : s.pop? with
    | none =>
      have none : s.toList = [] := by
        rw [← List.length_eq_zero_iff, length_toList]
        exact (pop?_eq_none_iff s).1 h
      simp only [listAct, act, h, none]
      rfl
    | some top =>
      obtain ⟨x, t⟩ := top
      rw [listAct, toList_of_pop? h, List.getLast?_concat, List.dropLast_concat]
      simp only [act, h]
  | clear => rw [listAct, act, toList_clear]

theorem listRun_toList (s : Bounded capacity α) (actions : List (Action α)) :
    listRun capacity s.toList actions = ((s.run actions).1, (s.run actions).2.toList) := by
  induction actions generalizing s with
  | nil => rfl
  | cons a actions ih => rw [listRun, listAct_toList, ih, run]

/-! ## Elements come from pushes -/

theorem subperm_listAct (capacity : Nat) (l : List α) (a : Action α) :
    ((listAct capacity l a).2 ++ (listAct capacity l a).1.popped).Subperm (l ++ a.pushed) := by
  cases a with
  | push x =>
    rw [listAct]
    split
    · rw [Answer.popped, List.append_nil]
      exact .refl _
    · rw [Answer.popped, List.append_nil]
      exact (List.sublist_append_left l [x]).subperm
  | pop =>
    rcases List.eq_nil_or_concat' l with rfl | ⟨l, x, rfl⟩
    · exact .refl _
    · rw [listAct, List.getLast?_concat, List.dropLast_concat, Action.pushed, List.append_nil]
      exact .refl _
  | clear => exact List.nil_subperm

/-- What a run leaves and what it pops are elements that were there or were pushed, each once. -/
theorem subperm_listRun (capacity : Nat) (l : List α) (actions : List (Action α)) :
    ((listRun capacity l actions).2 ++ pops (listRun capacity l actions).1).Subperm (l ++ pushes actions) := by
  induction actions generalizing l with
  | nil => exact .refl _
  | cons a actions ih =>
    have first := subperm_listAct capacity l a
    have later := ih (listAct capacity l a).2
    rw [listRun, pops, List.flatMap_cons, pushes, List.flatMap_cons]
    generalize listAct capacity l a = now at first later ⊢
    generalize listRun capacity now.2 actions = last at later ⊢
    -- A pop moves an element from the list to the answers, so only how often each one occurs is compared.
    rw [← Multiset.coe_le] at first later ⊢
    simp only [← Multiset.coe_add] at first later ⊢
    calc (last.2 + (now.1.popped + pops last.1) : Multiset α)
      _ = last.2 + pops last.1 + now.1.popped := by rw [add_assoc, add_comm (pops last.1 : Multiset α)]
      _ ≤ now.2 + pushes actions + now.1.popped := add_le_add_left later _
      _ = now.2 + now.1.popped + pushes actions := add_right_comm ..
      _ ≤ l + a.pushed + pushes actions := add_le_add_left first _
      _ = l + (a.pushed + pushes actions) := add_assoc ..

/-- **A stack of a fixed capacity is a list that holds no more.** A new stack shows the empty list. Along every run, from any
stack and whatever its free slots hold, the answers and all that is seen are those of the list: a push appends and succeeds
exactly if there is room, and else gives its element back, a pop takes the last element, and clearing takes all. The list
stays within the capacity. What a run leaves and what it pops are elements that were there or were pushed, each once; so an
element that is not there, like one that was popped or cleared away, is never seen again unless it is pushed again. -/
theorem behaves_as_list [Inhabited α] :
    (empty : Bounded capacity α).Shows [] ∧
    ∀ (s : Bounded capacity α) (actions : List (Action α)),
      let after := s.run actions
      let list := listRun capacity s.toList actions
      after.1 = list.1 ∧ after.2.Shows list.2 ∧ list.2.length ≤ capacity ∧
        (after.2.toList ++ pops after.1).Subperm (s.toList ++ pushes actions) ∧
        ∀ x, x ∉ s.toList → x ∉ pushes actions → x ∉ after.2.toList ∧ x ∉ pops after.1 := by
  have nothing : (empty : Bounded capacity α).toList = [] := toList_empty
  refine ⟨nothing ▸ shows_toList empty, fun s actions => ?_⟩
  have sources := subperm_listRun capacity s.toList actions
  rw [listRun_toList] at sources ⊢
  refine ⟨rfl, shows_toList _, ?_, sources, fun x absent unpushed => ?_⟩
  · rw [length_toList]
    exact (s.run actions).2.size_le
  · have unseen : x ∉ (s.run actions).2.toList ++ pops (s.run actions).1 := fun seen =>
      (List.mem_append.1 (sources.subset seen)).elim absent unpushed
    rwa [List.mem_append, not_or] at unseen

/-- A stack of two elements is filled, emptied and used again; the free slots still hold what was popped or cleared away. -/
theorem behaves_as_list_reused :
    let new : Bounded 2 Nat := empty
    let used := new.run [.push 7, .push 8, .push 9, .pop, .clear]
    let again : List (Action Nat) := [.push 5, .pop, .pop]
    used.1 = [.pushed, .pushed, .full 9, .top (some 8), .cleared] ∧
      (used.2.slots.toList = [7, 8] ∧ 8 ∉ used.2.toList ∧ 8 ∉ pushes again) ∧
      (used.2.run again).1 = [.pushed, .top (some 5), .top none] ∧ 8 ∉ pops (used.2.run again).1 := by
  intro new used again
  obtain ⟨nothing, runs⟩ := @behaves_as_list Nat 2 _
  obtain ⟨answers, shows, -⟩ := runs new [.push 7, .push 8, .push 9, .pop, .clear]
  obtain ⟨answers', -, -, -, unseen⟩ := runs used.2 again
  have held : used.2.toList = [] := shows.toList_eq.trans (by rw [nothing.toList_eq]; rfl)
  have absent : 8 ∉ used.2.toList := held ▸ List.not_mem_nil
  have unpushed : 8 ∉ pushes again := by decide
  refine ⟨?_, ⟨by decide, absent, unpushed⟩, ?_, (unseen 8 absent unpushed).2⟩
  · exact answers.trans (by rw [nothing.toList_eq]; rfl)
  · exact answers'.trans (by rw [held]; rfl)

end Redraw.Bounded

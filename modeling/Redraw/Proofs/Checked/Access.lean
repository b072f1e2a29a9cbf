import Redraw.Bytes
import Redraw.Proofs.Calls
import Redraw.Word

/-!
# Checked accesses

The operations of the library are total: a store past the end of a buffer is no store, and a quotient by zero is zero. Here
every access says what it needs of its operands, and a call that does not meet it ends with a failure instead. Indices that
their types bound already, those of frames, registers and the slots of a stack, need no check. So a checked call that
returns made no access outside of a buffer, divided nothing by zero and copied nothing of another length (`Agrees`).
-/

namespace Redraw.Checked

/-- What ends a checked call. -/
inductive Failure where
  /-- An index past the end of a buffer of `size` elements. -/
  | index (i size : Nat)
  /-- A slice that does not lie in a buffer of `size` elements. -/
  | slice (start stop size : Nat)
  /-- A copy between buffers of different sizes. -/
  | copy (source target : Nat)
  /-- A division by something that is not positive, or into chunks of no size. -/
  | divisor
  /-- A range to clamp to whose lower bound is above its upper one. -/
  | bounds (lo hi : Int)
  /-- A call outside its contract. -/
  | fault (fault : Fault)

end Checked

/-- A call whose accesses are checked. -/
abbrev Checked (α : Type) := Except Checked.Failure α

namespace Checked

variable {α β : Type}

theorem ok_bind (a : α) (f : α → Checked β) : (Except.ok a >>= f) = f a := rfl

/-! ## Accesses -/

def demand (p : Prop) [Decidable p] (failure : Failure) : Checked Unit := if p then .ok () else .error failure

theorem demand_of {p : Prop} [Decidable p] (h : p) (failure : Failure) : demand p failure = .ok () := if_pos h

def get (b : ByteArray) (i : Nat) : Checked UInt8 :=
  match Bytes.at? b i with
  | some v => .ok v
  | none => .error (.index i b.size)

/-- The element of a list at an index. -/
def item (as : List α) (i : Nat) : Checked α :=
  match as[i]? with
  | some a => .ok a
  | none => .error (.index i as.length)

theorem item_of_getElem? {as : List α} {i : Nat} {a : α} (found : as[i]? = some a) : item as i = .ok a := by
  rw [item, found]

def slice (b : ByteArray) (start stop : Nat) : Checked Unit :=
  demand (start ≤ stop ∧ stop ≤ b.size) (.slice start stop b.size)

/-- A quotient, rounded toward zero. The divisor has to be positive, so that the quotient is no larger than the dividend. -/
def divide (x y : Int) : Checked Int := if 0 < y then .ok (x.tdiv y) else .error .divisor

theorem divide_of_pos {y : Int} (h : 0 < y) (x : Int) : divide x y = .ok (x.tdiv y) := if_pos h

def remainder (x y : Nat) : Checked Nat := if y = 0 then .error .divisor else .ok (x % y)

def clampTo (x lo hi : Int) : Checked Int := if hi < lo then .error (.bounds lo hi) else .ok (max lo (min x hi))

/-- The call of a handler, which can only end with a fault. -/
def lift : Except Fault α → Checked α
  | .ok a => .ok a
  | .error e => .error (.fault e)

/-! ## Loops -/

theorem mapM_eq {f : α → Checked β} {g : α → β} {as : List α} (step : ∀ a ∈ as, f a = .ok (g a)) :
    as.mapM f = .ok (as.map g) := by
  induction as with
  | nil => rfl
  | cons a as ih =>
    rw [List.forall_mem_cons] at step
    rw [List.mapM_cons, step.1, ok_bind, ih step.2]
    rfl

/-- A loop whose every step returns what a function gives, as long as something holds that the function keeps. -/
theorem foldlM_eq {f : β → α → Checked β} {g : β → α → β} (P : β → Prop) {as : List α}
    (step : ∀ b, P b → ∀ a ∈ as, f b a = .ok (g b a)) (keeps : ∀ b, P b → ∀ a ∈ as, P (g b a)) {b : β} (h : P b) :
    as.foldlM f b = .ok (as.foldl g b) := by
  induction as generalizing b with
  | nil => rfl
  | cons a as ih =>
    have first := step b h a List.mem_cons_self
    rw [List.foldlM_cons, first, ok_bind, List.foldl_cons]
    exact ih (fun b h a mem => step b h a (List.mem_cons_of_mem _ mem))
      (fun b h a mem => keeps b h a (List.mem_cons_of_mem _ mem)) (keeps b h a List.mem_cons_self)

/-! ## Agreement -/

/-- The call returns, and the checked call returns the same. -/
def Agrees (x : Checked α) (y : Except Fault α) : Prop := Returns y fun a => x = .ok a

namespace Agrees

variable {x : Checked α} {y : Except Fault α} {f : α → Checked β} {g : α → Except Fault β}

theorem pure (a : α) : Agrees (.ok a) (.ok a) := ⟨a, rfl, rfl⟩

theorem bind (first : Agrees x y) (rest : ∀ a, y = .ok a → Agrees (f a) (g a)) : Agrees (x >>= f) (y >>= g) := by
  obtain ⟨a, returned, rfl⟩ := first
  have agrees := rest a returned
  rw [returned]
  exact agrees

theorem lift_bind {a : α} (returned : y = .ok a) (rest : Agrees (f a) (g a)) : Agrees (Checked.lift y >>= f) (y >>= g) := by
  rw [returned]
  exact rest

end Agrees

end Redraw.Checked

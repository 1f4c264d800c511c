import ScriptConsole.Value

/-!
# Promises

A promise settles once, with a value or with a reason.  Promises are kept by
identity, in the order in which they were made; a promise that has not settled
may settle with a value that holds the promise itself.
-/

namespace ScriptConsole

inductive PromiseState where
  | pending
  | fulfilled (value : Value)
  | rejected (reason : Value)
  deriving Repr, Inhabited

inductive Settlement where
  | fulfilled (value : Value)
  | rejected (reason : Value)
  deriving Repr, Inhabited

namespace Settlement

def toState : Settlement → PromiseState
  | fulfilled value => .fulfilled value
  | rejected reason => .rejected reason

end Settlement

namespace PromiseState

def settlement? : PromiseState → Option Settlement
  | pending => none
  | fulfilled value => some (.fulfilled value)
  | rejected reason => some (.rejected reason)

def isPending (state : PromiseState) : Bool :=
  state.settlement?.isNone

end PromiseState

/-- The promises of a session, by their identity. -/
structure Promises where
  states : List PromiseState
  deriving Repr, Inhabited

namespace Promises

def empty : Promises :=
  ⟨[]⟩

def state (promises : Promises) (identity : Nat) : PromiseState :=
  promises.states[identity]?.getD .pending

def make (promises : Promises) (state : PromiseState) : Nat × Promises :=
  (promises.states.length, ⟨promises.states ++ [state]⟩)

/-- Settle a promise, and whether it was pending until now. -/
def settle (promises : Promises) (identity : Nat) (settlement : Settlement) :
    Bool × Promises :=
  if (promises.state identity).isPending then
    (true, ⟨promises.states.set identity settlement.toState⟩)
  else (false, promises)

theorem state_settle_of_settled {promises : Promises} {identity : Nat}
    (h : (promises.state identity).isPending = false) (other : Nat)
    (settlement : Settlement) :
    (promises.settle other settlement).2.state identity = promises.state identity := by
  unfold settle
  split
  · rename_i hother
    have hne : other ≠ identity := by
      rintro rfl
      rw [h] at hother
      simp at hother
    simp [state, List.getElem?_set_ne hne]
  · rfl

end Promises

end ScriptConsole

import ScriptConsole.Palette
import ScriptConsole.Value.Promises

/-!
# Programs

What the functions of a host do.  A program is a tree: each node is one step in
the session, and what the session answers chooses the branch.  A branch ends
with a value or with the error that is thrown.
-/

namespace ScriptConsole

abbrev Outcome : Type :=
  Except ScriptError Value

inductive Program where
  | done (outcome : Outcome)
  /-- Look a name up. -/
  | getName (name : String) (next : Option Value → Program)
  | setName (name : String) (value : Value) (next : Program)
  /-- Remove a name, and its value. -/
  | removeName (name : String) (next : Option Value → Program)
  /-- The names that have a value, in order. -/
  | names (next : List String → Program)
  /-- The names of the helpers, in order. -/
  | helperNames (next : List String → Program)
  | call (function : Function) (arguments : List Value) (next : Outcome → Program)
  /-- Call the function that a name stands for. -/
  | callName (name : String) (arguments : List Value) (next : Outcome → Program)
  | printLine (text : String) (next : Program)
  /-- Print a line on standard error. -/
  | printMessage (text : String) (next : Program)
  /-- Print a notice, and the prompt again. -/
  | notify (text : String) (next : Program)
  | showPrompt (next : Program)
  | palette (next : Palette → Program)
  /-- The lines of the statement that is being read, if lines are read. -/
  | bufferedLines (next : Option (List String) → Program)
  /-- Make a promise in a given state. -/
  | makePromise (state : PromiseState) (next : Nat → Program)
  /-- Make a promise that settles in the background, after a number of rounds and after
  lines that are printed then. -/
  | spawn (rounds : Nat) (lines : List String) (settlement : Settlement) (next : Nat → Program)

namespace Program

def give (value : Value) : Program :=
  .done (.ok value)

def throw (error : ScriptError) : Program :=
  .done (.error error)

/-- Go on with a value, or end with the error. -/
def orThrow (next : Value → Program) : Outcome → Program
  | .ok value => next value
  | .error error => .throw error

/-- Look names up; a name without a value gives nothing. -/
def getNames : List String → (List Value → Program) → Program
  | [], next => next []
  | name :: rest, next =>
      .getName name fun value =>
        getNames rest fun values => next (value.getD .undefined :: values)

end Program

abbrev Behavior : Type :=
  List Value → Program

end ScriptConsole

import ScriptConsole.Host
import ScriptConsole.World.Printing

/-!
# Evaluation

A statement is compiled, executed, and waited for if it suspends.

Whatever executes code may change the world, except that it leaves the read loop to the
session: it prints lines and shows the prompt, and may define directives and offer names,
but it reads no input and touches neither the buffered lines nor the history.
-/

namespace ScriptConsole

variable {α : Type}

/-- What executes compiled code in a world. -/
structure Execution (α : Type) where
  run : CompiledUnit → (filename : String) → World α → Outcome × World α
  /-- The read loop is left to the session. -/
  onlyPrints : ∀ unit filename (world : World α), world.Prints (run unit filename world).2

def Host.execution (host : Host) : Execution α where
  run unit filename world := world.run (host unit filename)
  onlyPrints unit filename world := World.prints_run (host unit filename) world

instance : Coe Host (Execution α) :=
  ⟨Host.execution⟩

namespace World

/-- Wait for the value of a unit that suspends. -/
def settled (value : Value) (world : World α) : Except EvalError Value × World α :=
  match value with
  | .promise identity =>
      match world.await identity with
      | (some (.fulfilled value), world) => (.ok value, world)
      | (some (.rejected reason), world) =>
          (.error (.classify reason.rejectionError), world)
      | (none, world) => (world.limits.stalled, world)
  | other => (.ok other, world)

def evaluate (execution : Execution α) (compiler : Option Compiler) (statement label : String)
    (world : World α) : Except EvalError Value × World α :=
  match CompiledUnit.ofStatement compiler statement label with
  | .error error => (.error (.classify error.toScriptError), world)
  | .ok unit =>
      match execution.run unit label world with
      | (.error error, world) => (.error (.classify error), world)
      | (.ok value, world) =>
          if unit.suspends then world.settled value else (.ok value, world)

end World

end ScriptConsole

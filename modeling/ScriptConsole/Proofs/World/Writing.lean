import ScriptConsole.Evaluation

/-!
# What evaluation writes

Background work prints the lines of its tasks, so to wait for a promise only writes, and
so does the whole of an evaluation.
-/

namespace ScriptConsole.World

variable {α : Type}

theorem prints_printLines (lines : List String) (world : World α) :
    Prints world { world with console := world.console.printLines lines } := by
  induction lines generalizing world with
  | nil => exact .refl world
  | cons line lines ih => exact (prints_printLine world line).trans (ih _)

theorem prints_finish (world : World α) (task : Task) : Prints world (world.finish task) := by
  have settled : Prints { world with console := world.console.printLines task.lines }
      (world.finish task) := .of_eq rfl rfl
  exact (prints_printLines task.lines world).trans settled

theorem prints_round (world : World α) : Prints world world.round := by
  have finished : ∀ (tasks : List Task) (world : World α),
      Prints world (tasks.foldl finish world) := by
    intro tasks
    induction tasks with
    | nil => exact Prints.refl
    | cons task tasks ih => exact fun world => (prints_finish world task).trans (ih _)
  let waiting := (world.tasks.filter (·.rounds ≠ 0)).map fun task =>
    { task with rounds := task.rounds - 1 }
  have turned : Prints world { world with tasks := waiting } := .of_eq rfl rfl
  exact turned.trans (finished _ _)

theorem prints_await (promise : Nat) (world : World α) :
    Prints world (await promise world).2 := by
  have within : ∀ (rounds : Nat) (world : World α),
      Prints world (awaitWithin promise rounds world).2 := by
    intro rounds
    induction rounds with
    | zero => exact Prints.refl
    | succ rounds ih =>
        intro world
        simp only [awaitWithin]
        split
        · exact .refl world
        · exact (prints_round world).trans (ih _)
  exact within _ world

theorem prints_settled (value : Value) (world : World α) :
    Prints world (settled value world).2 := by
  unfold settled
  split
  · rename_i identity
    have waited := prints_await identity world
    split <;> rename_i h <;> rwa [h] at waited
  · exact .refl world

theorem prints_evaluate (execution : Execution α) (compiler : Option Compiler)
    (statement label : String) (world : World α) :
    Prints world (evaluate execution compiler statement label world).2 := by
  unfold evaluate
  split
  · exact .refl world
  · rename_i unit _
    have ran := execution.onlyPrints unit label world
    split
    · rename_i h
      rw [h] at ran
      exact ran
    · rename_i value after h
      rw [h] at ran
      split
      · exact ran.trans (prints_settled value after)
      · exact ran

end ScriptConsole.World

import ScriptConsole.Proofs.AsyncWrap.Body
import ScriptConsole.Proofs.World.Settling

/-!
# Waiting for a promise

The background work of a world ends after a number of turns, and from then on nothing
changes.  To wait for a promise is to give these turns, so it finds every settlement that
there will ever be.
-/

namespace ScriptConsole

namespace World

variable {α : Type}

/-- The world after the background work has had a number of turns. -/
def afterRounds : (rounds : Nat) → World α → World α
  | 0, world => world
  | rounds + 1, world => afterRounds rounds world.round

theorem exists_task_of_afterRounds {rounds : Nat} {world : World α} {task : Task}
    (mem : task ∈ (afterRounds rounds world).tasks) :
    ∃ old ∈ world.tasks, old.rounds = task.rounds + rounds := by
  induction rounds generalizing world with
  | zero => exact ⟨task, mem, rfl⟩
  | succ rounds ih =>
      obtain ⟨middle, mem, waited⟩ := ih mem
      obtain ⟨old, mem, -, waited'⟩ := exists_task_of_round mem
      exact ⟨old, mem, by omega⟩

theorem round_of_tasks_eq_nil {world : World α} (ended : world.tasks = []) :
    world.round = world := by
  cases world
  simp_all [round]

theorem afterRounds_of_tasks_eq_nil {world : World α} (ended : world.tasks = [])
    (rounds : Nat) : afterRounds rounds world = world := by
  induction rounds with
  | zero => rfl
  | succ rounds ih => rw [afterRounds, round_of_tasks_eq_nil ended, ih]

theorem afterRounds_add (rounds more : Nat) (world : World α) :
    afterRounds (rounds + more) world = afterRounds more (afterRounds rounds world) := by
  induction rounds generalizing world with
  | zero => rw [Nat.zero_add, afterRounds]
  | succ rounds ih => rw [Nat.succ_add, afterRounds, ih, afterRounds]

/-- A promise that has settled stays as it is while the background work has its turns. -/
theorem state_round_of_settled {promise : Nat} {settlement : Settlement} {world : World α}
    (settled : world.promises.state promise = settlement.toState) :
    world.round.promises.state promise = settlement.toState := by
  refine promises_round (fun promises => promises.state promise = settlement.toState)
    settled fun task _ promises settled => ?_
  have still : (promises.state promise).isPending = false := by
    rw [settled, PromiseState.isPending, PromiseState.settlement?_toState]
    rfl
  exact (Promises.state_settle_of_settled still _ _).trans settled

theorem state_afterRounds_of_settled {promise : Nat} {settlement : Settlement} {world : World α}
    (settled : world.promises.state promise = settlement.toState) (rounds : Nat) :
    (afterRounds rounds world).promises.state promise = settlement.toState := by
  induction rounds generalizing world with
  | zero => exact settled
  | succ rounds ih => exact ih (state_round_of_settled settled)

/-- What is found in a number of rounds is what the promise has become after them. -/
theorem awaitWithin_fst (promise rounds : Nat) (world : World α) :
    (awaitWithin promise rounds world).1 =
      ((afterRounds rounds world).promises.state promise).settlement? := by
  induction rounds generalizing world with
  | zero => rfl
  | succ rounds ih =>
      rw [awaitWithin]
      cases h : (world.promises.state promise).settlement? with
      | none => exact ih _
      | some settlement =>
          have settled := PromiseState.settlement?_eq_some.1 h
          rw [state_afterRounds_of_settled settled, PromiseState.settlement?_toState]

theorem le_foldl_max (init : Nat) (numbers : List Nat) :
    init ≤ numbers.foldl max init ∧ ∀ number ∈ numbers, number ≤ numbers.foldl max init := by
  induction numbers generalizing init with
  | nil => simp
  | cons first numbers ih =>
      obtain ⟨start, rest⟩ := ih (max init first)
      simp only [List.foldl_cons, List.forall_mem_cons]
      exact ⟨by omega, by omega, rest⟩

/-- To wait for a promise finds the settlement that it has after any number of turns, and
only such a settlement. -/
theorem await_fst_eq_some_iff {promise : Nat} {settlement : Settlement} {world : World α} :
    (await promise world).1 = some settlement ↔
      ∃ rounds, (afterRounds rounds world).promises.state promise = settlement.toState := by
  rw [await]
  generalize hbound : (world.tasks.map (·.rounds + 1)).foldl max 0 = bound
  rw [awaitWithin_fst, PromiseState.settlement?_eq_some]
  constructor
  · exact fun settled => ⟨bound, settled⟩
  · rintro ⟨rounds, settled⟩
    have ended : (afterRounds bound world).tasks = [] := by
      refine List.eq_nil_iff_forall_not_mem.2 fun task mem => ?_
      obtain ⟨old, mem, waited⟩ := exists_task_of_afterRounds mem
      have within := (le_foldl_max 0 (world.tasks.map (·.rounds + 1))).2 _
        (List.mem_map.2 ⟨old, mem, rfl⟩)
      omega
    -- Turns after the last one change nothing, and turns after the settlement keep it.
    have same := afterRounds_of_tasks_eq_nil ended rounds
    rw [← same, ← afterRounds_add, Nat.add_comm, afterRounds_add]
    exact state_afterRounds_of_settled settled bound

/-! ## Suspended statements -/

@[simp] theorem rejectionError_ofError (error : ScriptError) :
    (Value.ofError error).rejectionError = error := by
  simp [Value.rejectionError, Value.rejection, Value.ofError, Dictionary.find?]

/-- A statement whose promise is rejected sooner or later fails with what the reason says. -/
theorem settled_fst_of_rejected {promise : Nat} (rounds : Nat) {reason : Value} {world : World α}
    (rejected : (afterRounds rounds world).promises.state promise = .rejected reason) :
    (world.settled (.promise promise)).1 = .error (.classify reason.rejectionError) := by
  have found : (await promise world).1 = some (.rejected reason) :=
    await_fst_eq_some_iff.2 ⟨rounds, rejected⟩
  rw [settled]
  split <;> rename_i h <;> rw [h] at found <;> cases found
  rfl

/-- A suspending statement whose promise is rejected sooner or later fails as if its code
threw what the reason says. -/
theorem evaluate_fst_of_rejected {execution : Execution α} {compiler : Option Compiler}
    {statement label : String} {unit : CompiledUnit} {promise : Nat} (rounds : Nat)
    {reason : Value} {before after : World α}
    (compiled : CompiledUnit.ofStatement compiler statement label = .ok unit)
    (suspends : unit.suspends = true)
    (ran : execution.run unit label before = (.ok (.promise promise), after))
    (rejected : (afterRounds rounds after).promises.state promise = .rejected reason) :
    (before.evaluate execution compiler statement label).1 =
      .error (.classify reason.rejectionError) := by
  simp only [evaluate, compiled, ran, suspends, if_true]
  exact settled_fst_of_rejected rounds rejected

end World

namespace CompiledUnit

/-- The unit of an expression that is waited for. -/
def awaiting (expression : String) : CompiledUnit :=
  ⟨"(async () => \x7b return (await " ++ expression ++ ");\n \x7d)()", true⟩

theorem ofStatement_await (label : String) :
    ofStatement none "await f()" label = .ok (awaiting "f()") := by
  have wraps : AsyncWrap.wrap? "await f()".toList =
      some "(async () => \x7b return (await f());\n \x7d)()".toList :=
    @AsyncWrap.wrap?_of_within 5 _ _
      ⟨[⟨.identifier, [], "await".toList⟩, ⟨.identifier, [' '], ['f']⟩,
        ⟨.punctuator, [], ['(']⟩, ⟨.punctuator, [], [')']⟩], []⟩
      (by decide) (by decide) (by decide)
  rw [ofStatement_none, ofCode, wraps]
  rfl

end CompiledUnit

end ScriptConsole

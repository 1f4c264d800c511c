import ScriptConsole.Evaluation

/-!
# What settles a promise

A promisified function is called with a callback that settles a promise.  The calls of
callbacks are recorded, as a run leads to them; the promise settles by the first of them
that is of its own callback, whatever is run in between and afterwards.  Background work
settles the promises that were made for it, and what a function throws rejects the promise
of its own call.
-/

namespace ScriptConsole

namespace PromiseState

/-- The state after a settlement, if there is one; a state that has settled stays. -/
def settledBy : PromiseState → Option Settlement → PromiseState
  | pending, some settlement => settlement.toState
  | state, _ => state

@[simp] theorem settledBy_none (state : PromiseState) : state.settledBy none = state := by
  cases state <;> rfl

theorem settledBy_or (state : PromiseState) (first second : Option Settlement) :
    state.settledBy (first.or second) = (state.settledBy first).settledBy second := by
  cases first with
  | none => simp
  | some settlement =>
      cases state with
      | pending => cases settlement <;> rfl
      | fulfilled value => rfl
      | rejected reason => rfl

theorem settlement?_toState (settlement : Settlement) :
    settlement.toState.settlement? = some settlement := by
  cases settlement <;> rfl

theorem settlement?_eq_some {state : PromiseState} {settlement : Settlement} :
    state.settlement? = some settlement ↔ state = settlement.toState := by
  constructor
  · intro settled
    cases state <;> cases settled <;> rfl
  · rintro rfl
    exact settlement?_toState settlement

end PromiseState

namespace Promises

/-- A pending promise takes a settlement, a settled one stays as it is. -/
theorem state_settle_self {promises : Promises} {promise : Nat}
    (made : promise < promises.states.length) (settlement : Settlement) :
    (promises.settle promise settlement).2.state promise =
      (promises.state promise).settledBy (some settlement) := by
  unfold settle
  cases before : promises.state promise with
  | pending => simp [PromiseState.isPending, PromiseState.settlement?, state, made,
      PromiseState.settledBy]
  | fulfilled value => exact before
  | rejected reason => exact before

theorem state_settle_of_ne {promises : Promises} {promise other : Nat} (ne : other ≠ promise)
    (settlement : Settlement) :
    (promises.settle other settlement).2.state promise = promises.state promise := by
  unfold settle
  split
  · simp [state, List.getElem?_set_ne ne]
  · rfl

@[simp] theorem length_settle (promises : Promises) (promise : Nat) (settlement : Settlement) :
    (promises.settle promise settlement).2.states.length = promises.states.length := by
  unfold settle
  split <;> simp

/-- The promises that there are keep their states when another one is made. -/
theorem state_make {promises : Promises} {promise : Nat}
    (made : promise < promises.states.length) (state : PromiseState) :
    (promises.make state).2.state promise = promises.state promise := by
  simp [Promises.state, make, List.getElem?_append_left made]

end Promises

/-- A call of the callback that settles a promise. -/
structure CallbackCall where
  promise : Nat
  arguments : List Value

namespace World

variable {α : Type}

/-! ## The record of a run -/

/-- The arguments of the first call of the callback of a promise. -/
def firstCall? (promise : Nat) (calls : List CallbackCall) : Option (List Value) :=
  (calls.find? (·.promise = promise)).map (·.arguments)

theorem firstCall?_append (promise : Nat) (calls more : List CallbackCall) :
    firstCall? promise (calls ++ more) =
      (firstCall? promise calls).or (firstCall? promise more) := by
  rw [firstCall?, List.find?_append, Option.map_or]
  rfl

/-- Which calls of callbacks the answer to a call leads to, in order. -/
abbrev Recorder (α : Type) : Type :=
  Function → List Value → World α → List CallbackCall

def recordRefused : Recorder α :=
  fun _ _ _ => []

/-- What the function that a name stands for leads to. -/
def recordName (record : Recorder α) (name : String) (arguments : List Value)
    (world : World α) : List CallbackCall :=
  match Dictionary.find? name world.workspace.names with
  | some (.function function) => record function arguments world
  | _ => []

/-- The calls of callbacks in the run of a program, in order. -/
def recordRun (caller : Caller α) (record : Recorder α) : Program → World α → List CallbackCall
  | .done _, _ => []
  | .getName name next, world =>
      recordRun caller record (next (Dictionary.find? name world.workspace.names)) world
  | .setName name value next, world =>
      recordRun caller record next (world.setName name value)
  | .removeName name next, world =>
      recordRun caller record (next (Dictionary.find? name world.workspace.names))
        { world with workspace := world.workspace.removeName name }
  | .names next, world => recordRun caller record (next world.workspace.names.keys) world
  | .helperNames next, world =>
      recordRun caller record (next world.workspace.helpers.keys) world
  | .call function arguments next, world =>
      let (outcome, after) := caller function arguments world
      record function arguments world ++ recordRun caller record (next outcome) after
  | .callName name arguments next, world =>
      let (outcome, after) := callName caller name arguments world
      recordName record name arguments world ++ recordRun caller record (next outcome) after
  | .printLine text next, world => recordRun caller record next (world.printLine text)
  | .printMessage text next, world => recordRun caller record next (world.printMessage text)
  | .notify text next, world => recordRun caller record next (world.notify text)
  | .showPrompt next, world => recordRun caller record next world.showPrompt
  | .palette next, world => recordRun caller record (next world.palette) world
  | .bufferedLines next, world =>
      recordRun caller record (next (world.server.map Server.buffer)) world
  | .makePromise state next, world =>
      let (identity, after) := world.makePromise state
      recordRun caller record (next identity) after
  | .spawn rounds lines settlement next, world =>
      let (identity, after) := world.spawn rounds lines settlement
      recordRun caller record (next identity) after

/-- The calls of callbacks in a call of a function, in order. -/
def recordWith (caller : Caller α) (record : Recorder α) : Recorder α
  | .native _ identity, arguments, world =>
      match world.natives[identity]? with
      | some behavior => recordRun caller record (behavior arguments) world
      | none => []
  | .helper _ command, arguments, world =>
      match Dictionary.find? command world.workspace.helpers with
      | some helper => recordRun caller record (helper.handler arguments) world
      | none => []
  | .settler promise, arguments, _ => [⟨promise, arguments⟩]
  | .promisified target, arguments, world =>
      let (promise, given) := world.makePromise .pending
      recordWith caller record target (arguments ++ [.function (.settler promise)]) given

/-- How calls are answered inside a call, with further calls up to a depth. -/
def callerWithin : (depth : Nat) → Caller α
  | 0 => refuseCall
  | depth + 1 => callWith (callerWithin depth)

/-- What the calls inside a call lead to, with further calls up to a depth. -/
def recordWithin : (depth : Nat) → Recorder α
  | 0 => recordRefused
  | depth + 1 => recordWith (callerWithin depth) (recordWithin depth)

theorem callAt_eq_callerWithin (depth : Nat) :
    (callAt depth : Caller α) = callerWithin (depth + 1) := by
  induction depth with
  | zero => rfl
  | succ depth ih => rw [callAt, ih, ← callerWithin]

/-- What holds of every step of a run, and of steps one after the other. -/
structure HoldsOfSteps (holds : World α → List CallbackCall → World α → Prop) : Prop where
  kept {before after : World α} : after.promises = before.promises →
    after.tasks = before.tasks → holds before [] after
  trans {before middle after : World α} {calls more : List CallbackCall} :
    holds before calls middle → holds middle more after → holds before (calls ++ more) after
  called (world : World α) (target : Nat) (arguments : List Value) :
    holds world [⟨target, arguments⟩] (world.settle target (settlementOf arguments))
  made (world : World α) (state : PromiseState) : holds world [] (world.makePromise state).2
  spawned (world : World α) (rounds : Nat) (lines : List String) (settlement : Settlement) :
    holds world [] (world.spawn rounds lines settlement).2
  /-- What the function behind a promisified call throws rejects the promise that was
  made for the call. -/
  threw {world after : World α} {calls : List CallbackCall} (error : ScriptError) :
    holds (world.makePromise .pending).2 calls after →
      holds world calls
        (after.settle world.promises.states.length (.rejected (.ofError error)))

/-- What holds of all calls that a caller answers, as they are recorded. -/
def HoldsOfCalls (holds : World α → List CallbackCall → World α → Prop) (caller : Caller α)
    (record : Recorder α) : Prop :=
  ∀ function arguments world,
    holds world (record function arguments world) (caller function arguments world).2

theorem promises_showPrompt (world : World α) :
    world.showPrompt.promises = world.promises ∧ world.showPrompt.tasks = world.tasks := by
  unfold showPrompt
  split <;> exact ⟨rfl, rfl⟩

namespace HoldsOfSteps

variable {holds : World α → List CallbackCall → World α → Prop} {caller : Caller α}
  {record : Recorder α}

theorem refl (steps : HoldsOfSteps holds) (world : World α) : holds world [] world :=
  steps.kept rfl rfl

theorem callName (steps : HoldsOfSteps holds) (calls : HoldsOfCalls holds caller record)
    (name : String) (arguments : List Value) (world : World α) :
    holds world (recordName record name arguments world)
      (World.callName caller name arguments world).2 := by
  unfold recordName World.callName
  cases Dictionary.find? name world.workspace.names with
  | none => exact steps.refl world
  | some value =>
      cases value with
      | function function => exact calls function arguments world
      | _ => exact steps.refl world

theorem runWith (steps : HoldsOfSteps holds) (calls : HoldsOfCalls holds caller record)
    (program : Program) (world : World α) :
    holds world (recordRun caller record program world)
      (World.runWith caller program world).2 := by
  induction program generalizing world with
  | done outcome => exact steps.refl world
  | getName name next ih => exact ih _ world
  | setName name value next ih =>
      have named : holds world [] (world.setName name value) := steps.kept rfl rfl
      exact steps.trans named (ih _)
  | removeName name next ih =>
      have removed : holds world [] { world with workspace := world.workspace.removeName name } :=
        steps.kept rfl rfl
      exact steps.trans removed (ih _ _)
  | names next ih => exact ih _ world
  | helperNames next ih => exact ih _ world
  | call function arguments next ih => exact steps.trans (calls function arguments world) (ih _ _)
  | callName name arguments next ih =>
      exact steps.trans (steps.callName calls name arguments world) (ih _ _)
  | printLine text next ih =>
      have printed : holds world [] (world.printLine text) := steps.kept rfl rfl
      exact steps.trans printed (ih _)
  | printMessage text next ih =>
      have printed : holds world [] (world.printMessage text) := steps.kept rfl rfl
      exact steps.trans printed (ih _)
  | notify text next ih =>
      have notified : holds world [] (world.notify text) :=
        steps.kept (promises_showPrompt _).1 (promises_showPrompt _).2
      exact steps.trans notified (ih _)
  | showPrompt next ih =>
      have shown : holds world [] world.showPrompt :=
        steps.kept (promises_showPrompt world).1 (promises_showPrompt world).2
      exact steps.trans shown (ih _)
  | palette next ih => exact ih _ world
  | bufferedLines next ih => exact ih _ world
  | makePromise state next ih => exact steps.trans (steps.made world state) (ih _ _)
  | spawn rounds lines settlement next ih =>
      exact steps.trans (steps.spawned world rounds lines settlement) (ih _ _)

theorem callWith (steps : HoldsOfSteps holds) (calls : HoldsOfCalls holds caller record) :
    HoldsOfCalls holds (World.callWith caller) (recordWith caller record) := by
  intro function
  induction function with
  | native name identity =>
      intro arguments world
      simp only [World.callWith, recordWith]
      cases world.natives[identity]? with
      | none => exact steps.refl world
      | some behavior => exact steps.runWith calls _ world
  | helper name command =>
      intro arguments world
      simp only [World.callWith, recordWith]
      cases Dictionary.find? command world.workspace.helpers with
      | none => exact steps.refl world
      | some helper => exact steps.runWith calls _ world
  | settler target => exact fun arguments world => steps.called world target arguments
  | promisified target ih =>
      intro arguments world
      have called := ih (arguments ++ [.function (.settler (world.makePromise .pending).1)])
        (world.makePromise .pending).2
      simp only [World.callWith]
      split <;> rename_i h <;> rw [h] at called
      · exact steps.trans (steps.made world .pending) called
      · exact steps.threw _ called

theorem within (steps : HoldsOfSteps holds) (depth : Nat) :
    HoldsOfCalls holds (callerWithin depth) (recordWithin depth) := by
  induction depth with
  | zero => exact fun _ _ world => steps.refl world
  | succ depth ih => exact steps.callWith ih

end HoldsOfSteps

/-! ## Tasks -/

/-- Every task in the background settles a promise that was made. -/
def TasksKnown (world : World α) : Prop :=
  ∀ task ∈ world.tasks, task.promise < world.promises.states.length

theorem tasks_finishAll (due : List Task) (world : World α) :
    (due.foldl finish world).tasks = world.tasks :=
  List.foldlRecOn (motive := fun (after : World α) => after.tasks = world.tasks) due _ rfl
    fun _ same _ _ => same

theorem exists_task_of_round {world : World α} {task : Task} (mem : task ∈ world.round.tasks) :
    ∃ old ∈ world.tasks, old.promise = task.promise ∧ old.rounds = task.rounds + 1 := by
  rw [round, tasks_finishAll] at mem
  obtain ⟨old, waits, rfl⟩ := List.mem_map.1 mem
  obtain ⟨mem, waits⟩ := List.mem_filter.1 waits
  have waits : old.rounds ≠ 0 := by simpa using waits
  exact ⟨old, mem, rfl, (Nat.sub_one_add_one waits).symm⟩

theorem promises_round (holds : Promises → Prop) {world : World α} (start : holds world.promises)
    (settled : ∀ task ∈ world.tasks, ∀ promises, holds promises →
      holds (promises.settle task.promise task.settlement).2) :
    holds world.round.promises := by
  rw [round]
  refine List.foldlRecOn (motive := fun (after : World α) => holds after.promises) _ _ start ?_
  intro after kept task mem
  exact settled task (List.mem_filter.1 mem).1 _ kept

theorem holdsOfSteps_tasksKnown :
    HoldsOfSteps fun (before : World α) _ after => before.TasksKnown → after.TasksKnown where
  kept promises tasks known := by
    rw [TasksKnown, promises, tasks]
    exact known
  trans first second := second ∘ first
  called world target arguments known := by
    simpa [TasksKnown, settle] using known
  made world state known task mem := by
    have := known task mem
    simp [makePromise, Promises.make]
    omega
  spawned world rounds lines settlement known task mem := by
    simp only [spawn, makePromise, Promises.make, List.length_append, List.length_singleton]
    rcases List.mem_append.1 mem with mem | mem
    · have := known task mem
      omega
    · obtain rfl := List.mem_singleton.1 mem
      exact Nat.lt_succ_self _
  threw {world after calls} error called known := by
    have made : (world.makePromise .pending).2.TasksKnown := by
      intro task mem
      have := known task mem
      simp [makePromise, Promises.make]
      omega
    simpa [TasksKnown, settle] using called made

theorem tasksKnown_round {world : World α} (known : world.TasksKnown) :
    world.round.TasksKnown := by
  have length : world.round.promises.states.length = world.promises.states.length :=
    promises_round (fun promises =>
      promises.states.length = world.promises.states.length) rfl
      fun task _ promises same => (Promises.length_settle ..).trans same
  intro task mem
  obtain ⟨old, mem, same, -⟩ := exists_task_of_round mem
  rw [length, ← same]
  exact known old mem

/-! ## What settles a promise -/

/-- A promise that was made and that no task in the background settles. -/
structure LeftToCallback (promise : Nat) (world : World α) : Prop where
  made : promise < world.promises.states.length
  noTask : ∀ task ∈ world.tasks, task.promise ≠ promise

/-- The promise settles by the first call of its callback, and by nothing else. -/
structure SettlesBy (promise : Nat) (before : World α) (calls : List CallbackCall)
    (after : World α) : Prop where
  left : LeftToCallback promise after
  state : after.promises.state promise =
    (before.promises.state promise).settledBy ((firstCall? promise calls).map settlementOf)

/-- What is done settles a promise that is left to its callback by that callback only. -/
def Respects (promise : Nat) (before : World α) (calls : List CallbackCall)
    (after : World α) : Prop :=
  LeftToCallback promise before → SettlesBy promise before calls after

namespace Respects

variable {promise : Nat} {before middle after : World α}

theorem of_eq (made : before.promises.states.length ≤ after.promises.states.length)
    (state : promise < before.promises.states.length →
      after.promises.state promise = before.promises.state promise)
    (tasks : after.tasks = before.tasks) : Respects promise before [] after := fun left => by
  refine ⟨⟨Nat.lt_of_lt_of_le left.made made, tasks ▸ left.noTask⟩, ?_⟩
  rw [state left.made]
  exact (PromiseState.settledBy_none _).symm

theorem trans {calls more : List CallbackCall} (first : Respects promise before calls middle)
    (second : Respects promise middle more after) :
    Respects promise before (calls ++ more) after := fun left => by
  have settles := first left
  have settles' := second settles.left
  refine ⟨settles'.left, ?_⟩
  rw [settles'.state, settles.state, firstCall?_append, Option.map_or,
    PromiseState.settledBy_or]

theorem called (world : World α) (target : Nat) (arguments : List Value) :
    Respects promise world [⟨target, arguments⟩]
      (world.settle target (settlementOf arguments)) := fun left => by
  refine ⟨⟨?_, left.noTask⟩, ?_⟩
  · simpa [settle] using left.made
  · by_cases own : target = promise
    · subst own
      simpa [settle, firstCall?] using
        Promises.state_settle_self left.made (settlementOf arguments)
    · simpa [settle, firstCall?, own] using
        Promises.state_settle_of_ne own (settlementOf arguments)

theorem made (world : World α) (state : PromiseState) :
    Respects promise world [] (world.makePromise state).2 :=
  of_eq (by simp [makePromise, Promises.make]) (fun made => Promises.state_make made state) rfl

/-- The task that is spawned is for the promise that is made with it. -/
theorem spawned (world : World α) (rounds : Nat) (lines : List String)
    (settlement : Settlement) :
    Respects promise world [] (world.spawn rounds lines settlement).2 := fun left => by
  have settles := made world .pending left
  refine ⟨⟨settles.left.made, fun task mem => ?_⟩, settles.state⟩
  rcases List.mem_append.1 mem with mem | mem
  · exact left.noTask task mem
  · obtain rfl := List.mem_singleton.1 mem
    exact Nat.ne_of_gt left.made

end Respects

/-- What may happen in a world after a promise was made, with the calls of callbacks in
it: programs are run at any depth of calls, the background work has its turns, and the
functions behind other promisified calls throw. -/
inductive Later (promise : Nat) : World α → List CallbackCall → World α → Prop
  | kept {before after : World α} (promises : after.promises = before.promises)
      (tasks : after.tasks = before.tasks) : Later promise before [] after
  | ran (depth : Nat) (program : Program) (before : World α) :
      Later promise before (recordRun (callerWithin depth) (recordWithin depth) program before)
        (runWith (callerWithin depth) program before).2
  | turned (before : World α) : Later promise before [] before.round
  | threw {other : Nat} (ne : other ≠ promise) (error : ScriptError) (before : World α) :
      Later promise before [] (before.settle other (.rejected (.ofError error)))
  | trans {before middle after : World α} {calls more : List CallbackCall}
      (first : Later promise before calls middle) (second : Later promise middle more after) :
      Later promise before (calls ++ more) after

namespace Later

variable {promise : Nat} {before after : World α} {calls : List CallbackCall}

theorem refl (world : World α) : Later promise world [] world :=
  .kept rfl rfl

theorem tasksKnown (later : Later promise before calls after) (known : before.TasksKnown) :
    after.TasksKnown := by
  have steps := holdsOfSteps_tasksKnown (α := α)
  induction later with
  | kept promises tasks => exact steps.kept promises tasks known
  | ran depth program before => exact steps.runWith (steps.within depth) program before known
  | turned before => exact tasksKnown_round known
  | threw ne error before => simpa [TasksKnown, settle] using known
  | trans _ _ first second => exact second (first known)

end Later

end World

end ScriptConsole

import ScriptConsole.Proofs.Session.Execution
import ScriptConsole.Proofs.World.Waiting

/-!
# Promises in a session

All that an embedding does with a session is something that may follow after a promise was
made.  So the promise of a promisified call settles by the first call of its callback, or
by what its function throws before, whatever else the session runs.
-/

namespace ScriptConsole

namespace World

variable {α : Type} (promise : Nat)

theorem later_run (program : Program) (world : World α) :
    ∃ calls, Later promise world calls (world.run program).2 := by
  have ran := @Later.ran _ promise (world.limits.callDepth + 1) program world
  rw [← callAt_eq_callerWithin] at ran
  exact ⟨_, ran⟩

theorem later_await (awaited : Nat) (world : World α) :
    ∃ calls, Later promise world calls (await awaited world).2 := by
  have within : ∀ (rounds : Nat) (world : World α),
      ∃ calls, Later promise world calls (awaitWithin awaited rounds world).2 := by
    intro rounds
    induction rounds with
    | zero => exact fun world => ⟨_, .refl world⟩
    | succ rounds ih =>
        intro world
        rw [awaitWithin]
        split
        · exact ⟨_, .refl world⟩
        · obtain ⟨calls, later⟩ := ih world.round
          exact ⟨_, (Later.turned world).trans later⟩
  exact within _ world

theorem later_settled (value : Value) (world : World α) :
    ∃ calls, Later promise world calls (settled value world).2 := by
  unfold settled
  split
  · rename_i awaited
    have waited := later_await promise awaited world
    split <;> rename_i h <;> rwa [h] at waited
  · exact ⟨_, .refl world⟩

theorem later_evaluate (host : Host) (compiler : Option Compiler) (statement label : String)
    (world : World α) :
    ∃ calls, Later promise world calls
      (evaluate host.execution compiler statement label world).2 := by
  unfold evaluate
  split
  · exact ⟨_, .refl world⟩
  · rename_i unit _
    obtain ⟨calls, ran⟩ : ∃ calls, Later promise world calls
        (host.execution.run unit label world).2 := later_run promise (host unit label) world
    split
    · rename_i h
      rw [h] at ran
      exact ⟨calls, ran⟩
    · rename_i value after h
      rw [h] at ran
      split
      · obtain ⟨more, waited⟩ := later_settled promise value after
        exact ⟨_, ran.trans waited⟩
      · exact ⟨calls, ran⟩

end World

namespace Session

variable {ν : Type}

/-- What is done with a session whose host runs programs may follow after a promise was
made. -/
def GoesOn (promise : Nat) (before after : Session ν) : Prop :=
  after.host = before.host ∧ ∀ host : Host, before.host = host.execution →
    ∃ calls, World.Later promise before.world calls after.world

namespace GoesOn

variable {promise : Nat} {before middle after : Session ν}

theorem of_later {calls : List CallbackCall} (host : after.host = before.host)
    (later : World.Later promise before.world calls after.world) : GoesOn promise before after :=
  ⟨host, fun _ _ => ⟨calls, later⟩⟩

theorem of_eq (host : after.host = before.host)
    (promises : after.world.promises = before.world.promises)
    (tasks : after.world.tasks = before.world.tasks) : GoesOn promise before after :=
  of_later host (.kept promises tasks)

theorem refl (session : Session ν) : GoesOn promise session session :=
  of_eq rfl rfl rfl

theorem trans (first : GoesOn promise before middle) (second : GoesOn promise middle after) :
    GoesOn promise before after := by
  refine ⟨second.1.trans first.1, fun host runs => ?_⟩
  obtain ⟨calls, earlier⟩ := first.2 host runs
  obtain ⟨more, later⟩ := second.2 host (first.1.trans runs)
  exact ⟨calls ++ more, earlier.trans later⟩

theorem foldl {β : Type} {step : Session ν → β → Session ν}
    (each : ∀ session item, GoesOn promise session (step session item)) (items : List β)
    (session : Session ν) : GoesOn promise session (items.foldl step session) := by
  induction items generalizing session with
  | nil => exact .refl session
  | cons item items ih => exact (each session item).trans (ih _)

end GoesOn

variable {promise : Nat}

/-! ## Operations -/

theorem goesOn_showPrompt (session : Session ν) : GoesOn promise session session.showPrompt :=
  .of_eq rfl (World.promises_showPrompt _).1 (World.promises_showPrompt _).2

theorem goesOn_notify (session : Session ν) (text : String) :
    GoesOn promise session (session.notify text) :=
  .of_eq rfl (World.promises_showPrompt _).1 (World.promises_showPrompt _).2

theorem goesOn_list (session : Session ν) : GoesOn promise session session.list := by
  have printed : ∀ (session : Session ν) (line : String),
      GoesOn promise session (session.printLine line) := fun _ _ => .of_eq rfl rfl rfl
  exact (GoesOn.foldl printed _ session).trans (goesOn_showPrompt _)

theorem goesOn_publishCompletions (session : Session ν) :
    GoesOn promise session session.publishCompletions := by
  unfold publishCompletions
  split <;> exact .of_eq rfl rfl rfl

theorem goesOn_define (session : Session ν) (name help : String) (action : SessionAction ν) :
    GoesOn promise session (session.define name help action).2 := by
  unfold define
  split <;> exact .of_eq rfl rfl rfl

theorem goesOn_evaluateAs (session : Session ν) (label code : String) :
    GoesOn promise session (session.evaluateAs label code).2 := by
  refine ⟨rfl, fun host runs => ?_⟩
  rw [evaluateAs, runs]
  exact World.later_evaluate ..

theorem goesOn_evaluate (session : Session ν) (code : String) :
    GoesOn promise session (session.evaluate code).2 := by
  have counted : GoesOn promise session { session with evaluations := session.evaluations + 1 } :=
    .of_eq rfl rfl rfl
  exact counted.trans (goesOn_evaluateAs _ _ _)

theorem goesOn_conclude (session : Session ν) (text : String) :
    GoesOn promise session (session.conclude text) := by
  unfold conclude
  split <;> exact .of_eq rfl rfl rfl

theorem goesOn_report (session : Session ν) (result : Except EvalError Value) :
    GoesOn promise session (session.report result) := by
  match result with
  | .ok value => exact goesOn_conclude session _
  | .error (.unfinished error) => exact .refl session
  | .error (.failed error) => exact goesOn_conclude session _

theorem goesOn_handleStatement (session : Session ν) (code : String) :
    GoesOn promise session (session.handleStatement code) := by
  have noted : GoesOn promise session (session.noting code) := .of_eq rfl rfl rfl
  exact noted.trans ((goesOn_evaluate _ code).trans (goesOn_report _ _))

theorem goesOn_settleDown (session : Session ν) : GoesOn promise session session.settleDown := by
  have turned : GoesOn promise session { session with world := session.world.round } :=
    .of_later rfl (.turned session.world)
  exact turned.trans (goesOn_publishCompletions _)

theorem goesOn_close (session : Session ν) : GoesOn promise session session.close.2 := by
  unfold close
  dsimp only
  split
  · exact .of_eq rfl rfl rfl
  · split <;> exact .of_eq rfl rfl rfl

theorem goesOn_read (session : Session ν) : GoesOn promise session session.read.2 := by
  unfold read
  split
  · exact .refl session
  · split <;> exact .of_eq rfl rfl rfl

/-! ## The start and the loop -/

theorem goesOn_launch (session : Session ν) : GoesOn promise session session.launch :=
  .of_eq rfl (World.promises_showPrompt _).1 (World.promises_showPrompt _).2

theorem goesOn_setupHistory (session : Session ν) :
    GoesOn promise session session.setupHistory.2 := by
  unfold setupHistory
  split
  · split <;> exact .of_eq rfl rfl rfl
  · exact .refl session

/-- How callbacks are run, if sessions only go on by it. -/
def OnlyGoesOn (promise : Nat) (perform : Performer ν) : Prop :=
  ∀ callback session, GoesOn promise session (perform callback session).2

theorem goesOn_startWith {perform : Performer ν} (only : OnlyGoesOn promise perform)
    (session : Session ν) : GoesOn promise session (session.startWith perform).2 := by
  unfold startWith
  split
  · have launched : GoesOn promise session session.launch.setupHistory.2 :=
      (goesOn_launch session).trans (goesOn_setupHistory _)
    split <;> rename_i after h <;> rw [h] at launched
    · exact launched.trans (.of_eq rfl rfl rfl)
    · have ready : GoesOn promise after (after.runReady perform) :=
        GoesOn.trans (.of_eq rfl rfl rfl)
          (GoesOn.foldl (fun session callback => only callback session) after.ready
            { after with ready := [] })
      exact launched.trans (ready.trans
        ((goesOn_publishCompletions _).trans (goesOn_showPrompt _)))
  · exact .refl session
  · exact .refl session

theorem goesOn_obey {perform : Performer ν} (only : OnlyGoesOn promise perform)
    (session : Session ν) (input : ServerInput (SessionAction ν)) :
    GoesOn promise session (session.obey perform input).2 := by
  cases input with
  | leave => exact goesOn_close session
  | statement code => exact (goesOn_handleStatement session code).trans (goesOn_settleDown _)
  | directive action arguments =>
      have followed : GoesOn promise session (session.follow perform arguments action).2 := by
        cases action with
        | list => exact goesOn_list session
        | callback action => exact only _ session
      simp only [obey]
      split <;> rename_i h <;> rw [h] at followed
      · exact followed
      · exact followed.trans (goesOn_settleDown _)

theorem goesOn_turn {perform : Performer ν} (only : OnlyGoesOn promise perform)
    (session : Session ν) : GoesOn promise session (session.turn perform).2 := by
  unfold turn
  split
  · exact .refl session
  · split
    · exact .of_eq rfl rfl rfl
    · have read : ∀ (server : Server (SessionAction ν)) (console : Console),
          GoesOn promise session (session.withServer server console) :=
        fun _ _ => .of_eq rfl rfl rfl
      exact (read _ _).trans (goesOn_obey only _ _)

theorem goesOn_loop {perform : Performer ν} (only : OnlyGoesOn promise perform) (turns : Nat)
    (session : Session ν) : GoesOn promise session (loop perform turns session).2 := by
  induction turns generalizing session with
  | zero => exact .refl session
  | succ turns ih =>
      have turned := goesOn_turn only session
      rw [loop]
      split <;> rename_i h <;> rw [h] at turned
      · exact turned
      · exact turned.trans (ih _)

theorem goesOn_runWith {perform : Performer ν} (only : OnlyGoesOn promise perform)
    (session : Session ν) : GoesOn promise session (session.runWith perform).2 := by
  unfold runWith
  split
  · exact .refl session
  · exact .refl session
  · exact goesOn_loop only _ session

/-! ## Callbacks and uses -/

theorem onlyGoesOn_performWith {perform : Performer ν} (only : OnlyGoesOn promise perform) :
    OnlyGoesOn promise (performWith perform) := by
  intro callback
  induction callback with
  | done cause => exact GoesOn.refl
  | note entry next ih =>
      intro session
      have noted : GoesOn promise session { session with notes := session.notes ++ [entry] } :=
        .of_eq rfl rfl rfl
      exact noted.trans (ih _)
  | look next ih => exact fun session => ih _ session
  | start next ih => exact fun session => (goesOn_startWith only session).trans (ih _ _)
  | run next ih => exact fun session => (goesOn_runWith only session).trans (ih _ _)
  | close next ih => exact fun session => (goesOn_close session).trans (ih _ _)
  | evaluate label code next ih =>
      intro session
      cases label with
      | none => exact (goesOn_evaluate session code).trans (ih _ _)
      | some label => exact (goesOn_evaluateAs session label code).trans (ih _ _)
  | addHelper helper next ih =>
      intro session
      have added : GoesOn promise session (session.addHelper helper) := .of_eq rfl rfl rfl
      exact added.trans (ih _)
  | useCompiler compiler next ih =>
      intro session
      have used : GoesOn promise session (session.useCompiler compiler) := .of_eq rfl rfl rfl
      exact used.trans (ih _)
  | notify text next ih => exact fun session => (goesOn_notify session text).trans (ih _)
  | list next ih => exact fun session => (goesOn_list session).trans (ih _)
  | setName name value next ih =>
      intro session
      have named : GoesOn promise session (session.setName name value) := .of_eq rfl rfl rfl
      exact named.trans (ih _)
  | read next ih => exact fun session => (goesOn_read session).trans (ih _ _)
  | onReady callback next _ ih =>
      intro session
      have queued : GoesOn promise session (session.onReady callback) := .of_eq rfl rfl rfl
      exact queued.trans (ih _)
  | define name help action next _ ih =>
      exact fun session => (goesOn_define session name help (.callback action)).trans (ih _ _)

theorem onlyGoesOn_performAt (depth : Nat) :
    OnlyGoesOn promise (performAt depth : Performer ν) := by
  induction depth with
  | zero => exact onlyGoesOn_performWith fun _ => GoesOn.refl
  | succ depth ih => exact onlyGoesOn_performWith ih

theorem goesOn_use (session : Session ν) (use : Use ν) :
    GoesOn promise session (session.use use) := by
  cases use with
  | start => exact goesOn_startWith (onlyGoesOn_performAt _) session
  | run => exact goesOn_runWith (onlyGoesOn_performAt _) session
  | perform callback => exact onlyGoesOn_performAt _ callback session

theorem goesOn_uses (session : Session ν) (uses : List (Use ν)) :
    GoesOn promise session (uses.foldl use session) :=
  GoesOn.foldl goesOn_use uses session

/-- However a session is used, its tasks settle promises that were made. -/
theorem tasksKnown_ofUses (host : Host) (options : SessionOptions) (uses : List (Use ν)) :
    (ofUses host.execution options uses).world.TasksKnown := by
  have used : GoesOn 0 (ofOptions host.execution options : Session ν)
      (ofUses host.execution options uses) := goesOn_uses _ uses
  obtain ⟨calls, later⟩ := used.2 host rfl
  exact later.tasksKnown fun task mem => nomatch mem

/-! ## Promisified calls -/

end Session

end ScriptConsole

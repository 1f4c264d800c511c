import ScriptConsole.Proofs.Session.Course

/-!
# Sessions go through courses

Every operation of a session leads on through deeds: the operations that only
write, the reads of the server, the loop, and the callbacks with all that they
run inside one another.
-/

namespace ScriptConsole.Session

variable {ν : Type}

/-! ## Operations that only write -/

theorem leads_printLine (session : Session ν) (text : String) :
    Leads session (session.printLine text) :=
  .of_prints (World.prints_printLine _ _) rfl id

theorem leads_showPrompt (session : Session ν) : Leads session session.showPrompt :=
  .of_prints (World.prints_showPrompt _) rfl id

theorem leads_notify (session : Session ν) (text : String) :
    Leads session (session.notify text) :=
  .of_prints (World.prints_notify _ _) rfl id

/-- What changes neither the console nor the server nor the phase is no deed. -/
theorem leads_of_eq {before after : Session ν}
    (console : after.world.console = before.world.console)
    (server : after.world.server = before.world.server) (editor : after.editor = before.editor)
    (phase : after.phase = before.phase) : Leads before after :=
  .of_prints (.of_eq console server) editor fun unstarted => phase ▸ unstarted

theorem leads_list (session : Session ν) : Leads session session.list := by
  have lines : ∀ (lines : List String) (session : Session ν),
      Leads session (lines.foldl printLine session) := by
    intro lines
    induction lines with
    | nil => exact Leads.refl
    | cons line lines ih => exact fun session => (leads_printLine session line).trans (ih _)
  exact (lines _ session).trans (leads_showPrompt _)

theorem kept_setCompletions (server : Server (SessionAction ν)) (names : List String) :
    Server.Kept [] server (server.setCompletions names) := by
  have same : (server.editor.setCompletions names).source = server.editor.source ∧
      (server.editor.setCompletions names).promptShown = server.editor.promptShown := by
    unfold Editor.setCompletions
    split <;> exact ⟨rfl, rfl⟩
  exact ⟨rfl, rfl, rfl, same.1, same.2.trans (by simp), id⟩

theorem leads_publishCompletions (session : Session ν) :
    Leads session session.publishCompletions := by
  unfold publishCompletions
  split
  · exact .refl session
  · rename_i server isOpen
    exact .of_kept isOpen (kept_setCompletions server _) rfl rfl rfl id

theorem leads_define (session : Session ν) (name help : String) (action : SessionAction ν) :
    Leads session (session.define name help action).2 := by
  unfold define
  split
  · exact .refl session
  · rename_i server isOpen
    have kept : Server.Kept [] server (server.define name help action) :=
      ⟨rfl, rfl, rfl, rfl, by simp [Server.define], fun named => named.define name help action⟩
    exact .of_kept isOpen kept rfl rfl rfl id

theorem leads_evaluateAs (session : Session ν) (label code : String) :
    Leads session (session.evaluateAs label code).2 :=
  .of_prints (World.prints_evaluate ..) rfl id

theorem leads_evaluate (session : Session ν) (code : String) :
    Leads session (session.evaluate code).2 := by
  have counted : Leads session { session with evaluations := session.evaluations + 1 } :=
    leads_of_eq rfl rfl rfl rfl
  exact counted.trans (leads_evaluateAs _ _ _)

theorem leads_settleDown (session : Session ν) : Leads session session.settleDown := by
  have turned : Leads session { session with world := session.world.round } :=
    .of_prints (World.prints_round _) rfl id
  exact turned.trans (leads_publishCompletions _)

theorem leads_close (session : Session ν) : Leads session session.close.2 := by
  have ended : Leads session { session with phase := .terminated } :=
    .of_prints (.refl _) rfl (by rintro ⟨⟩)
  unfold close
  dsimp only
  split
  · exact ended
  · split
    · exact ended
    · exact ended.trans (leads_of_eq rfl rfl rfl rfl)

theorem kept_setupHistory {server next : Server (SessionAction ν)} {disk after : Disk}
    {path : String} (h : server.setupHistory disk path = (.ok next, after)) :
    Server.Kept [] server next := by
  unfold Server.setupHistory at h
  split at h
  · cases h
  · split at h
    · cases h
    · cases h
      exact ⟨rfl, rfl, rfl, rfl, by simp, id⟩

theorem leads_setupHistory (session : Session ν) : Leads session session.setupHistory.2 := by
  unfold setupHistory
  split
  · rename_i path server _ isOpen
    split
    · rename_i next disk h
      exact .of_kept isOpen (kept_setupHistory h) rfl rfl rfl id
    · refine .of_prints ?_ rfl id
      exact (World.prints_printLine _ _).trans (World.prints_printMessage _ _)
  · exact .refl session

/-! ## Reading -/

theorem sound_withServer {session : Session ν} {server next : Server (SessionAction ν)}
    (sound : session.Sound) (isOpen : session.world.server = some server)
    (named : Directive.DropsByName next.directives) (console : Console) :
    (session.withServer next console).Sound where
  closed unstarted := by
    have := sound.closed unstarted
    rw [isOpen] at this
    cases this
  named server h := by
    obtain rfl := Option.some.inj h
    exact named

theorem leads_react {session : Session ν} {server next : Server (SessionAction ν)}
    (isOpen : session.world.server = some server) {event : InputEvent} {editor : Editor}
    {console after : Console} {input? : Option (ServerInput (SessionAction ν))}
    (taken : server.editor.read server.currentPrompt session.world.console =
      (some event, editor, console))
    (reacted : { server with editor := editor }.react console event = ⟨input?, next, after⟩) :
    Leads session (session.withServer next after) ∧
      ∀ code, input? = some (.statement code) → code = "\n".intercalate next.buffer := by
  obtain ⟨printed, hafter, reacts, code⟩ :=
    Server.isOf_react { server with editor := editor } console event
  rw [reacted] at hafter reacts code
  dsimp only at hafter reacts code
  subst hafter
  obtain ⟨-, echoed, transcript⟩ := Editor.eq_of_read_some taken
  refine ⟨fun sound => ⟨?_, _, .single (.read isOpen (sound.named server isOpen) taken
    (congrArg Console.events transcript) reacted reacts)⟩, code⟩
  refine sound_withServer sound isOpen ?_ _
  rw [reacts.directives]
  exact sound.named server isOpen

/-- To read from the server is to read events one after the other; a statement that is
read is made of the buffered lines. -/
theorem leads_readInput {session : Session ν} {server : Server (SessionAction ν)}
    (isOpen : session.world.server = some server) {input : Option (ServerInput (SessionAction ν))}
    {next : Server (SessionAction ν)} {console : Console}
    (h : server.readInput session.world.console = (input, next, console)) :
    Leads session (session.withServer next console) ∧
      ∀ code, input = some (.statement code) → code = "\n".intercalate next.buffer := by
  generalize hshown : session.world.console = shown at h
  fun_induction server.readInput shown generalizing session with
  | case1 server shown editor after hread =>
      cases h
      refine ⟨fun sound => ⟨?_, _, .single (.unreadable isOpen (hshown ▸ hread))⟩, by simp⟩
      refine sound_withServer sound isOpen ?_ _
      exact sound.named server isOpen
  | case2 server shown event editor after hread input' next' printed hreact =>
      cases h
      exact leads_react isOpen (hshown ▸ hread) hreact
  | case3 server shown event editor after hread next' printed hreact ih =>
      have first := (leads_react isOpen (hshown ▸ hread) hreact).1
      have further := ih (rfl : (session.withServer next' printed).world.server = some next') rfl h
      exact ⟨first.trans further.1, further.2⟩

theorem leads_read (session : Session ν) : Leads session session.read.2 := by
  unfold read
  split
  · exact .refl session
  · rename_i server isOpen
    split <;> rename_i h <;> exact (leads_readInput isOpen h).1

/-! ## Statements -/

theorem exists_writes_evaluated (session : Session ν) (code : String) :
    ∃ written, (session.noting code).world.Writes written (session.evaluated code).world :=
  World.prints_evaluate session.host session.compiler code (label (session.evaluations + 1))
    (session.noting code).world

theorem exists_server_evaluated {session : Session ν} {server : Server (SessionAction ν)}
    (isOpen : session.world.server = some server) {code : String} {written : List ConsoleEvent}
    (writes : (session.noting code).world.Writes written (session.evaluated code).world) :
    ∃ next, (session.evaluated code).world.server = some next ∧
      Server.LeftAlone written server next :=
  writes.exists_server isOpen

theorem conclude_of_open {session : Session ν} {server : Server (SessionAction ν)}
    (isOpen : session.world.server = some server) (text : String) :
    session.conclude text =
      (session.withServer server.clearBuffer session.world.console).printLine text := by
  simp [conclude, isOpen]

theorem console_conclude {session : Session ν} {server : Server (SessionAction ν)}
    (isOpen : session.world.server = some server) (text : String) :
    (session.conclude text).world.console = session.world.console.record (.line text) := by
  rw [conclude_of_open isOpen]
  rfl

theorem server_conclude {session : Session ν} {server : Server (SessionAction ν)}
    (isOpen : session.world.server = some server) (text : String) :
    (session.conclude text).world.server = some server.clearBuffer := by
  rw [conclude_of_open isOpen]
  rfl

theorem sound_conclude {session : Session ν} {server : Server (SessionAction ν)}
    (sound : session.Sound) (isOpen : session.world.server = some server) (text : String) :
    (session.conclude text).Sound := by
  rw [conclude_of_open isOpen]
  refine (leads_printLine _ text (sound_withServer sound isOpen ?_ _)).1
  exact sound.named server isOpen

theorem leads_handleStatement {session : Session ν} {server : Server (SessionAction ν)}
    (isOpen : session.world.server = some server) {code : String}
    (joined : code = "\n".intercalate server.buffer) :
    Leads session (session.handleStatement code) := by
  intro sound
  obtain ⟨written, writes⟩ := exists_writes_evaluated session code
  obtain ⟨next, isOpen', left⟩ := exists_server_evaluated isOpen writes
  have evaluatedSound : (session.evaluated code).Sound := by
    constructor
    · intro unstarted
      have closed := sound.closed unstarted
      rw [isOpen] at closed
      cases closed
    · intro other h
      obtain rfl := Option.some.inj (isOpen'.symm.trans h)
      exact left.named (sound.named server isOpen)
  refine ⟨?_, _, .single (.evaluated isOpen joined writes)⟩
  rw [handleStatement_eq]
  match session.outcome code with
  | .ok value => exact sound_conclude evaluatedSound isOpen' _
  | .error (.failed error) => exact sound_conclude evaluatedSound isOpen' _
  | .error (.unfinished error) => exact evaluatedSound

/-! ## The start -/

theorem leads_launch {session : Session ν} (unstarted : session.phase = .notStarted) :
    Leads session session.launch := by
  intro sound
  have closed := sound.closed unstarted
  have events : ∃ written, session.launch.world.console.events =
      written ++ session.world.console.events ∧ ∀ event ∈ written, event.isLine = true := by
    refine ⟨[.line (session.world.palette.paint .notice startNotice), .line ""], ?_, ?_⟩
    · simp [launch, notify, printLine, World.notify, World.showPrompt, World.printLine, closed,
        Console.printLine, Console.record]
    · simp [ConsoleEvent.isLine]
  obtain ⟨written, events, lines⟩ := events
  refine ⟨⟨by rintro ⟨⟩, fun server isOpen => ?_⟩, _, .single (.launched closed events lines)⟩
  obtain rfl := Option.some.inj isOpen
  exact Directive.dropsByName_standard.define _ _ _

/-- A performer that only leads sessions on. -/
def OnlyLeads (perform : Performer ν) : Prop :=
  ∀ callback session, Leads session (perform callback session).2

theorem leads_runReady {perform : Performer ν} (only : OnlyLeads perform)
    (session : Session ν) : Leads session (session.runReady perform) := by
  have each : ∀ (callbacks : List (Callback ν)) (session : Session ν), Leads session
      (callbacks.foldl (fun session callback => (perform callback session).2) session) := by
    intro callbacks
    induction callbacks with
    | nil => exact Leads.refl
    | cons callback callbacks ih => exact fun session => (only callback session).trans (ih _)
  have emptied : Leads session { session with ready := [] } := leads_of_eq rfl rfl rfl rfl
  exact emptied.trans (each _ _)

theorem leads_startWith {perform : Performer ν} (only : OnlyLeads perform)
    (session : Session ν) : Leads session (session.startWith perform).2 := by
  unfold startWith
  split
  · rename_i unstarted
    have launched := (leads_launch unstarted).trans (leads_setupHistory _)
    split
    · rename_i failure after h
      rw [h] at launched
      exact launched.trans (.of_prints (.refl _) rfl (by rintro ⟨⟩))
    · rename_i after h
      rw [h] at launched
      exact launched.trans ((leads_runReady only _).trans
        ((leads_publishCompletions _).trans (leads_showPrompt _)))
  · exact .refl session
  · exact .refl session

/-! ## The loop -/

theorem leads_follow {perform : Performer ν} (only : OnlyLeads perform) (session : Session ν)
    (arguments : String) (action : SessionAction ν) :
    Leads session (session.follow perform arguments action).2 := by
  cases action with
  | list => exact leads_list session
  | callback action => exact only _ session

theorem leads_obey {perform : Performer ν} (only : OnlyLeads perform) {session : Session ν}
    {server : Server (SessionAction ν)} (isOpen : session.world.server = some server)
    {input : ServerInput (SessionAction ν)}
    (joined : ∀ code, input = .statement code → code = "\n".intercalate server.buffer) :
    Leads session (session.obey perform input).2 := by
  cases input with
  | statement code =>
      exact (leads_handleStatement isOpen (joined code rfl)).trans (leads_settleDown _)
  | directive action arguments =>
      have followed := leads_follow only session arguments action
      simp only [obey]
      split <;> rename_i h <;> rw [h] at followed
      · exact followed
      · exact followed.trans (leads_settleDown _)
  | leave => exact leads_close session

theorem leads_turn {perform : Performer ν} (only : OnlyLeads perform) (session : Session ν) :
    Leads session (session.turn perform).2 := by
  unfold turn
  split
  · exact .refl session
  · rename_i server isOpen
    split <;> rename_i h
    · exact (leads_readInput isOpen h).1
    · obtain ⟨reading, joined⟩ := leads_readInput isOpen h
      exact reading.trans (leads_obey only rfl fun code same => joined code (congrArg some same))

theorem leads_loop {perform : Performer ν} (only : OnlyLeads perform) (turns : Nat)
    (session : Session ν) : Leads session (loop perform turns session).2 := by
  induction turns generalizing session with
  | zero => exact .refl session
  | succ turns ih =>
      have turned := leads_turn only session
      rw [loop]
      split <;> rename_i h <;> rw [h] at turned
      · exact turned
      · exact turned.trans (ih _)

theorem leads_runWith {perform : Performer ν} (only : OnlyLeads perform) (session : Session ν) :
    Leads session (session.runWith perform).2 := by
  unfold runWith
  split
  · exact .refl session
  · exact .refl session
  · exact leads_loop only _ session

/-! ## Callbacks -/

theorem onlyLeads_performWith {perform : Performer ν} (only : OnlyLeads perform) :
    OnlyLeads (performWith perform) := by
  intro callback
  induction callback with
  | done cause => exact Leads.refl
  | note entry next ih =>
      intro session
      have noted : Leads session { session with notes := session.notes ++ [entry] } :=
        leads_of_eq rfl rfl rfl rfl
      exact noted.trans (ih _)
  | look next ih => exact fun session => ih _ session
  | start next ih => exact fun session => (leads_startWith only session).trans (ih _ _)
  | run next ih => exact fun session => (leads_runWith only session).trans (ih _ _)
  | close next ih => exact fun session => (leads_close session).trans (ih _ _)
  | evaluate label code next ih =>
      intro session
      cases label with
      | none => exact (leads_evaluate session code).trans (ih _ _)
      | some label => exact (leads_evaluateAs session label code).trans (ih _ _)
  | addHelper helper next ih =>
      intro session
      have added : Leads session (session.addHelper helper) := leads_of_eq rfl rfl rfl rfl
      exact added.trans (ih _)
  | useCompiler compiler next ih =>
      intro session
      have used : Leads session (session.useCompiler compiler) := leads_of_eq rfl rfl rfl rfl
      exact used.trans (ih _)
  | notify text next ih => exact fun session => (leads_notify session text).trans (ih _)
  | list next ih => exact fun session => (leads_list session).trans (ih _)
  | setName name value next ih =>
      intro session
      have named : Leads session (session.setName name value) := leads_of_eq rfl rfl rfl rfl
      exact named.trans (ih _)
  | read next ih => exact fun session => (leads_read session).trans (ih _ _)
  | onReady callback next _ ih =>
      intro session
      have queued : Leads session (session.onReady callback) := leads_of_eq rfl rfl rfl rfl
      exact queued.trans (ih _)
  | define name help action next _ ih =>
      exact fun session => (leads_define session name help (.callback action)).trans (ih _ _)

theorem onlyLeads_performAt (depth : Nat) : OnlyLeads (performAt depth : Performer ν) := by
  induction depth with
  | zero => exact onlyLeads_performWith fun _ => Leads.refl
  | succ depth ih => exact onlyLeads_performWith ih

/-- Whatever a callback does with a session, it leads on through deeds. -/
theorem leads_perform (callback : Callback ν) (session : Session ν) :
    Leads session (session.perform callback).2 :=
  onlyLeads_performAt _ callback session

/-! ## Embeddings -/

inductive Use (ν : Type) where
  | start
  | run
  | perform (callback : Callback ν)

def use (session : Session ν) : Use ν → Session ν
  | .start => session.start.2
  | .run => session.run.2
  | .perform callback => (session.perform callback).2

theorem leads_use (session : Session ν) (use : Use ν) : Leads session (session.use use) := by
  cases use with
  | start => exact leads_startWith (onlyLeads_performAt _) session
  | run => exact leads_runWith (onlyLeads_performAt _) session
  | perform callback => exact leads_perform callback session

/-- The session that an embedding has set up and used. -/
def ofUses (host : Execution (SessionAction ν)) (options : SessionOptions)
    (uses : List (Use ν)) : Session ν :=
  uses.foldl use (ofOptions host options)

theorem ofUses_concat {host : Execution (SessionAction ν)} {options : SessionOptions}
    (uses : List (Use ν)) (last : Use ν) :
    ofUses host options (uses ++ [last]) = (ofUses host options uses).use last := by
  simp [ofUses]

/-- A session that is used by an embedding has a course from its beginning. -/
theorem exists_course (host : Execution (SessionAction ν)) (options : SessionOptions)
    (uses : List (Use ν)) :
    ∃ log, Course (ofOptions host options) log (ofUses host options uses) := by
  have leads : ∀ (uses : List (Use ν)) (session : Session ν),
      Leads session (uses.foldl use session) := by
    intro uses
    induction uses with
    | nil => exact Leads.refl
    | cons first uses ih => exact fun session => (leads_use session first).trans (ih _)
  exact (leads uses _ (sound_ofOptions host options)).2

/-! ## Turns -/

theorem turn_of_input {perform : Performer ν} {session : Session ν}
    {server next : Server (SessionAction ν)} {console : Console}
    {input : ServerInput (SessionAction ν)} (isOpen : session.world.server = some server)
    (read : server.readInput session.world.console = (some input, next, console)) :
    session.turn perform = (session.withServer next console).obey perform input := by
  simp [turn, isOpen, read]

/-- A line of code is evaluated at once, with the lines that wait. -/
theorem exists_turn_of_isCode (perform : Performer ν) {session : Session ν}
    {server : Server (SessionAction ν)} {line : String} {editor : Editor} {console : Console}
    (isOpen : session.world.server = some server)
    (taken : server.editor.read server.currentPrompt session.world.console =
      (some (.line line), editor, console))
    (isCode : server.IsCode line) :
    ∃ next, next.buffer = server.buffer ++ [line] ∧
      session.turn perform = (none,
        ((session.withServer next console).handleStatement
          ("\n".intercalate next.buffer)).settleDown) := by
  obtain ⟨next, buffer, reacted⟩ :=
    { server with editor := editor }.exists_react_of_isCode console isCode
  exact ⟨next, buffer, turn_of_input isOpen (Server.readInput_of_react taken reacted)⟩

theorem run_of_remaining {session : Session ν} {turns : Nat} (running : session.phase = .running)
    (remaining : session.remaining = turns) :
    session.run = loop (performAt session.callbackDepth) (turns + 1) session := by
  simp [run, runWith, running, remaining]

theorem loop_of_turn {perform : Performer ν} {session after : Session ν} (turns : Nat)
    (turned : session.turn perform = (none, after)) :
    loop perform (turns + 1) session = loop perform turns after := by
  simp [loop, turned]

theorem loop_of_end {perform : Performer ν} {session after : Session ν} {turns : Nat}
    {result : Except SessionFailure Unit} (turned : session.turn perform = (some result, after)) :
    loop perform (turns + 1) session = (result, after) := by
  simp [loop, turned]

/-- A statement whose code gives a value that is no promise gives this value. -/
theorem evaluate_of_value {α : Type} {execution : Execution α} {statement label : String}
    {value : Value} {before after : World α}
    (ran : execution.run (CompiledUnit.ofCode statement) label before = (.ok value, after))
    (noPromise : ∀ promise, value ≠ .promise promise) :
    before.evaluate execution none statement label = (.ok value, after) := by
  have alike : after.settled value = (.ok value, after) := by
    unfold World.settled
    split
    · exact absurd rfl (noPromise _)
    · rfl
  unfold World.evaluate
  simp only [CompiledUnit.ofStatement_none, ran, alike, ite_self]

theorem obey_of_evaluate {perform : Performer ν} {session : Session ν} {code : String}
    {result : Except EvalError Value} {after : World (SessionAction ν)}
    (given : (session.noting code).world.evaluate session.host session.compiler code
      (label (session.evaluations + 1)) = (result, after)) :
    session.obey perform (.statement code) =
      (none, (({ session with
        world := after
        evaluations := session.evaluations + 1 } : Session ν).report result).settleDown) := by
  have evaluated : (session.noting code).evaluate code = (result, { session with
      world := after
      evaluations := session.evaluations + 1 }) :=
    congrArg (fun result => (result.1, { session with
      world := result.2
      evaluations := session.evaluations + 1 })) given
  exact congrArg (fun result => (none, (result.2.report result.1).settleDown)) evaluated

theorem obey_of_value {perform : Performer ν} {session : Session ν} {code : String}
    {value : Value} {after : World (SessionAction ν)} (plain : session.compiler = none)
    (ran : session.host.run (CompiledUnit.ofCode code) (label (session.evaluations + 1))
      (session.noting code).world = (.ok value, after))
    (settled : ∀ promise, value ≠ .promise promise) :
    session.obey perform (.statement code) =
      (none, (({ session with
        world := after
        evaluations := session.evaluations + 1 } : Session ν).report (.ok value)).settleDown) := by
  have given := evaluate_of_value ran settled
  rw [← plain] at given
  exact obey_of_evaluate given

/-- The result of a statement is reported after all that the evaluation wrote. -/
theorem console_handleStatement {session : Session ν} {server : Server (SessionAction ν)}
    (isOpen : session.world.server = some server) {code : String} {written : List ConsoleEvent}
    (writes : (session.noting code).world.Writes written (session.evaluated code).world) :
    (session.handleStatement code).world.console =
      ⟨session.reported code ++ (session.evaluated code).world.console.events⟩ := by
  obtain ⟨_, isOpen', -⟩ := exists_server_evaluated isOpen writes
  rw [handleStatement_eq, reported]
  match session.outcome code with
  | .ok value => exact console_conclude isOpen' _
  | .error (.failed error) => exact console_conclude isOpen' _
  | .error (.unfinished error) => rfl

theorem Does.events_eq {before after : Session ν} {deed : Deed} (does : Does before deed after) :
    after.world.console.events = deed.events ++ before.world.console.events := by
  cases does with
  | wrote quiet => exact quiet.events
  | launched _ events _ => exact events
  | read _ _ _ transcript _ _ =>
      change _ ++ _ = _
      rw [transcript]
      simp [Deed.events]
  | unreadable _ taken => exact congrArg Console.events (Editor.eq_of_read_none taken).2
  | evaluated isOpen _ writes =>
      rw [console_handleStatement isOpen writes, writes.console]
      simp [Deed.events, noting, Console.record]

theorem Course.events_eq {start finish : Session ν} {log : List Deed}
    (course : Course start log finish) :
    finish.world.console.events =
      log.flatMap Deed.events ++ start.world.console.events := by
  induction course with
  | refl => rfl
  | step _ does ih => rw [does.events_eq, ih, List.flatMap_cons, List.append_assoc]

end ScriptConsole.Session

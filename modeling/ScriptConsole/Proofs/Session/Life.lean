import ScriptConsole.Proofs.Session.Performing

/-!
# The life of a session

A session starts at most once, and is over for good when it is over.  The callbacks that
wait are run by the start that succeeds: all that were registered before it, in their
order, when there is a server, the helpers that every session has are functions and the
history is loaded.  This holds in whatever order the session is used, also by callbacks.
-/

namespace ScriptConsole

namespace Workspace

/-- The name of a helper stands for a function that runs the helper. -/
def Installed (workspace : Workspace) (helper : Helper) : Prop :=
  Dictionary.find? helper.name workspace.helpers = some helper ∧
    ∃ handlerName, Dictionary.find? helper.name workspace.names =
      some (.function (.helper handlerName helper.name))

theorem find?_addBuiltins (workspace : Workspace) (palette : Palette) {helper : Helper}
    (mem : helper ∈ builtins palette) :
    Dictionary.find? helper.name (workspace.addBuiltins palette).helpers = some helper := by
  simp only [builtins, List.mem_cons, List.not_mem_nil, or_false] at mem
  rcases mem with rfl | rfl
  · have other : "clear" ≠ "p" := by decide
    exact (Dictionary.find?_insert_of_ne other _ _).trans (Dictionary.find?_insert_self ..)
  · exact Dictionary.find?_insert_self ..

/-- Helpers that are made functions under their names leave a function under the name of
each of them. -/
theorem exists_find?_foldl_install {name : String} (helpers : List Helper)
    (names : Dictionary Value)
    (found : (∃ helper ∈ helpers, helper.name = name) ∨
      ∃ handlerName, Dictionary.find? name names = some (.function (.helper handlerName name))) :
    ∃ handlerName, Dictionary.find? name (helpers.foldl install names) =
      some (.function (.helper handlerName name)) := by
  induction helpers generalizing names with
  | nil =>
      rcases found with ⟨helper, mem, -⟩ | there
      · cases mem
      · exact there
  | cons first helpers ih =>
      apply ih
      by_cases same : first.name = name
      · subst same
        exact .inr ⟨first.handlerName, Dictionary.find?_insert_self ..⟩
      · rcases found with ⟨helper, mem, named⟩ | there
        · rcases List.mem_cons.1 mem with rfl | mem
          · exact absurd named same
          · exact .inl ⟨helper, mem, named⟩
        · rw [install, Dictionary.find?_insert_of_ne (Ne.symm same)]
          exact .inr there

/-- The helpers that every session has become functions when it goes live. -/
theorem installed_goLive (workspace : Workspace) (palette : Palette) {helper : Helper}
    (mem : helper ∈ builtins palette) :
    (workspace.addBuiltins palette).goLive.Installed helper := by
  have found := workspace.find?_addBuiltins palette mem
  refine ⟨found, exists_find?_foldl_install _ _ (.inl ⟨helper, ?_, rfl⟩)⟩
  exact List.mem_map_of_mem (Dictionary.mem_of_find? found)

end Workspace

namespace Session

variable {ν : Type}

/-- What was set up before the callbacks that waited are run. -/
structure Wired (before opened : Session ν) : Prop where
  unstarted : before.phase = .notStarted
  running : opened.phase = .running
  installed : ∀ helper ∈ Workspace.builtins before.world.palette,
    opened.world.workspace.Installed helper
  loaded : ∃ server, opened.world.server = some server ∧
    match before.historyPath with
    | none => server.historyPath = none ∧ server.editor.history = before.editor.history
    | some path => server.historyPath = some path ∧
        ∃ place bytes text, before.disk.openFile path = .ok (place, bytes) ∧
          Text.decode? bytes = some text ∧
          server.editor.history = before.editor.history.addAll (History.linesOf text.toList)

theorem installed_launch (session : Session ν) {helper : Helper}
    (mem : helper ∈ Workspace.builtins session.world.palette) :
    session.launch.world.workspace.Installed helper := by
  have palette : ((session.printLine "").notify startNotice).world.palette =
      session.world.palette := by
    simp only [notify, World.notify, World.showPrompt]
    split <;> rfl
  rw [← palette] at mem
  exact Workspace.installed_goLive _ _ mem

/-- When the history is set up, all is there that callbacks may count on. -/
theorem wired_of_setupHistory {before after : Session ν}
    (unstarted : before.phase = .notStarted)
    (setup : before.launch.setupHistory = (.ok (), after)) :
    Wired before { after with ready := [] } ∧ after.ready = before.ready := by
  obtain ⟨server, isOpen, noFile, editor⟩ := server_launch before
  cases kept : before.historyPath with
  | none =>
      have kept' : before.launch.historyPath = none := kept
      simp only [setupHistory, kept'] at setup
      cases setup
      refine ⟨⟨unstarted, rfl, fun _ => installed_launch before, server, isOpen, ?_⟩, rfl⟩
      simp [kept, noFile, editor]
  | some path =>
      have kept' : before.launch.historyPath = some path := kept
      cases reason : before.disk.historyFailure? path with
      | some failure =>
          have reason' : before.launch.disk.historyFailure? path = some failure := reason
          obtain ⟨failed, refused, -⟩ := setupHistory_of_failure isOpen kept' reason'
          cases setup.symm.trans refused
      | none =>
          have reason' : before.launch.disk.historyFailure? path = none := reason
          obtain ⟨place, bytes, text, opened, isText, loaded⟩ :=
            Server.setupHistory_of_text reason' server
          simp only [setupHistory, kept', isOpen, loaded] at setup
          cases setup
          refine ⟨⟨unstarted, rfl, fun _ => installed_launch before, _, rfl, ?_⟩, rfl⟩
          simp only [kept, true_and]
          exact ⟨place, bytes, text, opened, isText, by rw [editor]⟩

/-! ## Logs -/

namespace Moment

/-- Whether something happens that is no part of a start. -/
def isCalm (moment : Moment ν) : Bool :=
  match moment.event with
  | .acts | .registers _ | .refuses | .idles => true
  | .launches | .fails _ | .begins | .calls _ | .starts => false

/-- The callback that is run since it waited for the start. -/
def called? (moment : Moment ν) : Option (Callback ν) :=
  match moment.event with
  | .calls callback => some callback
  | _ => none

/-- The callback that is to wait for the start. -/
def registered? (moment : Moment ν) : Option (Callback ν) :=
  match moment.event with
  | .registers callback => some callback
  | _ => none

def starts (moment : Moment ν) : Bool :=
  match moment.event with
  | .starts => true
  | _ => false

theorem called?_of_isCalm {moment : Moment ν} (calm : moment.isCalm = true) :
    moment.called? = none := by
  obtain ⟨event, session⟩ := moment
  cases event <;> cases calm <;> rfl

theorem starts_of_isCalm {moment : Moment ν} (calm : moment.isCalm = true) :
    moment.starts = false := by
  obtain ⟨event, session⟩ := moment
  cases event <;> cases calm <;> rfl

end Moment

/-- No part of a start is in a log. -/
def Calm (log : List (Moment ν)) : Prop :=
  ∀ moment ∈ log, moment.isCalm = true

theorem calm_nil : Calm ([] : List (Moment ν)) :=
  List.forall_mem_nil _

theorem Calm.append {log more : List (Moment ν)} (first : Calm log) (second : Calm more) :
    Calm (log ++ more) :=
  List.forall_mem_append.2 ⟨first, second⟩

theorem Calm.cons {moment : Moment ν} {log : List (Moment ν)} (first : moment.isCalm = true)
    (second : Calm log) : Calm (moment :: log) :=
  List.forall_mem_cons.2 ⟨first, second⟩

/-- The callbacks that are to wait, in their order. -/
def registered (log : List (Moment ν)) : List (Callback ν) :=
  log.filterMap Moment.registered?

/-- The callbacks that are run since they waited, in their order. -/
def called (log : List (Moment ν)) : List (Callback ν) :=
  log.filterMap Moment.called?

theorem called_of_calm {log : List (Moment ν)} (calm : Calm log) : called log = [] :=
  List.filterMap_eq_nil_iff.2 fun moment mem => Moment.called?_of_isCalm (calm moment mem)

/-- The life of a session in which some callbacks wait: it is not started, or its start
fails, or it is started, and then exactly the callbacks are run that wait by then. -/
inductive Life (waiting : List (Callback ν)) : List (Moment ν) → Prop where
  | unstarted {log : List (Moment ν)} (calm : Calm log) : Life waiting log
  | failed {earlier later : List (Moment ν)} {before ended : Session ν}
      {failure : HistoryFailure} (first : Calm earlier)
      (unstarted : before.phase = .notStarted) (terminated : ended.phase = .terminated)
      (last : Calm later) :
      Life waiting (earlier ++ ⟨.launches, before.launch⟩ :: ⟨.fails failure, ended⟩ :: later)
  | started {earlier calls later : List (Moment ν)} {before opened ready : Session ν}
      (first : Calm earlier) (waits : before.ready = waiting ++ registered earlier)
      (wired : Wired before opened)
      (only : ∀ moment ∈ calls, moment.isCalm = true ∨ moment.called?.isSome = true)
      (all : called calls = before.ready)
      (served : ∀ moment ∈ calls, moment.session.world.server.isSome = true)
      (last : Calm later) :
      Life waiting (earlier ++ ⟨.launches, before.launch⟩ :: ⟨.begins, opened⟩ ::
        (calls ++ ⟨.starts, ready⟩ :: later))

namespace Life

variable {waiting : List (Callback ν)} {log more : List (Moment ν)}

theorem calm_append (calm : Calm more) (life : Life (waiting ++ registered more) log) :
    Life waiting (more ++ log) := by
  cases life with
  | unstarted calm' => exact .unstarted (calm.append calm')
  | failed first unstarted terminated last =>
      rw [← List.append_assoc]
      exact .failed (calm.append first) unstarted terminated last
  | started first waits wired only all served last =>
      rw [← List.append_assoc]
      refine .started (calm.append first) ?_ wired only all served last
      rw [waits, registered, registered, registered, List.filterMap_append, List.append_assoc]

theorem append_calm (life : Life waiting log) (calm : Calm more) : Life waiting (log ++ more) := by
  cases life with
  | unstarted calm' => exact .unstarted (calm'.append calm)
  | failed first unstarted terminated last =>
      rw [List.append_assoc]
      exact .failed first unstarted terminated (last.append calm)
  | started first waits wired only all served last =>
      simp only [List.append_assoc, List.cons_append]
      exact .started first waits wired only all served (last.append calm)

theorem countP_starts_le (life : Life waiting log) : log.countP Moment.starts ≤ 1 := by
  have noStart {log : List (Moment ν)} (none : ∀ moment ∈ log, moment.starts = false) :
      log.countP Moment.starts = 0 :=
    List.countP_eq_zero.2 fun moment mem => by simp [none moment mem]
  have quiet {log : List (Moment ν)} (calm : Calm log) : log.countP Moment.starts = 0 :=
    noStart fun moment mem => Moment.starts_of_isCalm (calm moment mem)
  cases life with
  | unstarted calm => simp [quiet calm]
  | failed first _ _ last =>
      simp [List.countP_append, quiet first, quiet last, Moment.starts]
  | @started _ calls _ _ _ _ first _ _ only _ _ last =>
      have onlyCalls : calls.countP Moment.starts = 0 := by
        refine noStart fun moment mem => ?_
        obtain ⟨event, session⟩ := moment
        rcases only _ mem with calm | call
        · exact Moment.starts_of_isCalm calm
        · cases event <;> cases call
          rfl
      simp [List.countP_append, List.countP_cons, quiet first, quiet last, onlyCalls,
        Moment.starts]

end Life

/-- What a log says of the start of a session: there is none if the session was started
before, and as long as it is not started callbacks only come to wait. -/
structure Lived (before : Session ν) (log : List (Moment ν)) (after : Session ν) : Prop where
  calm : before.phase ≠ .notStarted → Calm log
  life : before.phase = .notStarted → Life before.ready log
  waits : after.phase = .notStarted → Calm log ∧ after.ready = before.ready ++ registered log

namespace Lived

variable {before middle after : Session ν} {log more : List (Moment ν)}

theorem nil (session : Session ν) : Lived session [] session where
  calm _ := calm_nil
  life _ := .unstarted calm_nil
  waits _ := ⟨calm_nil, by simp [registered]⟩

theorem append (first : Lived before log middle) (second : Lived middle more after)
    (moves : Moves before middle) (moves' : Moves middle after) :
    Lived before (log ++ more) after where
  calm started := (first.calm started).append (second.calm (moves.phase.started started))
  life unstarted := by
    by_cases phase : middle.phase = .notStarted
    · obtain ⟨calm, ready⟩ := first.waits phase
      exact .calm_append calm (ready ▸ second.life phase)
    · exact (first.life unstarted).append_calm (second.calm phase)
  waits unstarted := by
    have unstarted' : middle.phase = .notStarted :=
      Decidable.byContradiction fun started => moves'.phase.started started unstarted
    obtain ⟨calm, ready⟩ := first.waits unstarted'
    obtain ⟨calm', ready'⟩ := second.waits unstarted
    refine ⟨calm.append calm', ?_⟩
    rw [ready', ready, registered, registered, registered, List.filterMap_append,
      List.append_assoc]

theorem single {event : LifeEvent ν} (calm : Moment.isCalm ⟨event, after⟩ = true)
    (ready : after.ready = before.ready ++ registered [⟨event, after⟩]) :
    Lived before [⟨event, after⟩] after where
  calm _ := .cons calm calm_nil
  life _ := .unstarted (.cons calm calm_nil)
  waits _ := ⟨.cons calm calm_nil, ready⟩

theorem acts (ready : after.ready = before.ready) : Lived before [⟨.acts, after⟩] after :=
  .single rfl (ready.trans (List.append_nil _).symm)

/-- Nothing is said of a start in a session that was started before. -/
theorem of_started (started : before.phase ≠ .notStarted) (chain : Chain before log after)
    (calm : Calm log) : Lived before log after where
  calm _ := calm
  life unstarted := absurd unstarted started
  waits unstarted := absurd unstarted (chain.moves.phase.started started)

end Lived

/-- The moments at which callbacks that waited are run, and what happens between them. -/
def OnlyCalls (log : List (Moment ν)) : Prop :=
  ∀ moment ∈ log, moment.isCalm = true ∨ moment.called?.isSome = true

theorem OnlyCalls.cons {session : Session ν} {callback : Callback ν}
    {first log : List (Moment ν)} (calm : Calm first) (only : OnlyCalls log) :
    OnlyCalls (⟨.calls callback, session⟩ :: (first ++ log)) := by
  refine List.forall_mem_cons.2 ⟨.inr rfl, List.forall_mem_append.2 ⟨?_, only⟩⟩
  exact fun moment mem => .inl (calm moment mem)

theorem called_cons {session : Session ν} {callback : Callback ν} {first log : List (Moment ν)}
    (calm : Calm first) :
    called (⟨.calls callback, session⟩ :: (first ++ log)) = callback :: called log := by
  have none := called_of_calm calm
  have here : (⟨.calls callback, session⟩ : Moment ν).called? = some callback := rfl
  unfold called at none ⊢
  rw [List.filterMap_cons_some here, List.filterMap_append, none, List.nil_append]

theorem Lived.failed {session after : Session ν} {failure : HistoryFailure}
    (unstarted : session.phase = .notStarted) (terminated : after.phase = .terminated) :
    Lived session [⟨.launches, session.launch⟩, ⟨.fails failure, after⟩] after where
  calm started := absurd unstarted started
  life _ := .failed calm_nil unstarted terminated calm_nil
  waits unstarted := by
    rw [terminated] at unstarted
    cases unstarted

theorem Lived.succeeded {session after middle : Session ν} {log : List (Moment ν)}
    (unstarted : session.phase = .notStarted)
    (setup : session.launch.setupHistory = (.ok (), after))
    (chain : Chain { after with ready := [] } log middle)
    (calls : OnlyCalls log ∧ called log = after.ready) :
    Lived session (⟨.launches, session.launch⟩ :: ⟨.begins, { after with ready := [] }⟩ ::
        (log ++ [⟨.starts, middle.publishCompletions.showPrompt⟩]))
      middle.publishCompletions.showPrompt := by
  obtain ⟨wired, ready⟩ := wired_of_setupHistory unstarted setup
  obtain ⟨only, all⟩ := calls
  have started : ({ after with ready := [] } : Session ν).phase ≠ .notStarted := by
    rw [wired.running]
    rintro ⟨⟩
  have served := chain.served (by
    obtain ⟨server, isOpen, -⟩ := wired.loaded
    rw [isOpen]
    rfl)
  refine ⟨absurd unstarted, fun _ => ?_, fun unstarted' => ?_⟩
  · exact .started calm_nil (List.append_nil _).symm wired only (all.trans ready) served calm_nil
  · exact absurd unstarted' ((chain.moves.trans (moves_started middle)).phase.started started)

mutual

/-- A callback starts the session at most once, and only if nothing did before. -/
theorem Performs.lived {session final : Session ν} {callback : Callback ν}
    {log : List (Moment ν)} {cause : Option String} :
    Performs session callback log cause final → Lived session log final
  | .done _ => .nil _
  | .act acts further =>
      (Lived.acts (moves_act? acts).2).append further.lived (moves_act? acts).1
        further.chain.moves
  | .onReady further =>
      (Lived.single rfl rfl).append further.lived (moves_withReady _ _) further.chain.moves
  | .start starts further =>
      starts.lived.append further.lived starts.chain.moves further.chain.moves
  | .run runs further => runs.lived.append further.lived runs.chain.moves further.chain.moves

theorem Starts.lived {session final : Session ν} {log : List (Moment ν)}
    {result : Except SessionFailure Unit} :
    Starts session log result final → Lived session log final
  | .refused _ => .single rfl (List.append_nil _).symm
  | .failed unstarted _ => .failed unstarted rfl
  | .succeeded unstarted setup calls =>
      .succeeded unstarted setup calls.chain
        (calls.called_eq ((moves_setupHistory setup).phase.started (by rintro ⟨⟩)))

theorem Calls.called_eq {session final : Session ν} {callbacks : List (Callback ν)}
    {log : List (Moment ν)} : Calls session callbacks log final →
      session.phase ≠ .notStarted → OnlyCalls log ∧ called log = callbacks
  | .nil, _ => ⟨List.forall_mem_nil _, rfl⟩
  | .cons performs others, started => by
      have calm := performs.lived.calm started
      obtain ⟨only, all⟩ := others.called_eq (performs.chain.moves.phase.started started)
      exact ⟨.cons calm only, by rw [called_cons calm, all]⟩

theorem Runs.lived {session final : Session ν} {log : List (Moment ν)}
    {result : Except SessionFailure Unit} :
    Runs session log result final → Lived session log final
  | .unstarted _ | .terminated _ => .single rfl (List.append_nil _).symm
  | .loops running loops => by
      have started : session.phase ≠ .notStarted := by simp [running]
      exact .of_started started loops.chain (loops.calm started)

theorem Loops.calm {session final : Session ν} {log : List (Moment ν)}
    {result : Except SessionFailure Unit} :
    Loops session log result final → session.phase ≠ .notStarted → Calm log
  | .ends _, _ => .cons rfl calm_nil
  | .goesOn turned further, started =>
      .cons rfl (further.calm ((moves_turn turned).phase.started started))
  | .gaveUp _ _ performs, started => .cons rfl (performs.lived.calm started)
  | .followed _ _ performs further, started => by
      have settled := performs.chain.moves.trans (.of_untouched (untouched_settleDown _))
      exact .cons rfl ((performs.lived.calm started).append
        (.cons rfl (further.calm (settled.phase.started started))))

end

theorem Uses.lived {session final : Session ν} {uses : List (Use ν)} {log : List (Moment ν)}
    (used : Uses session uses log final) : Lived session log final := by
  induction used with
  | nil => exact .nil _
  | start starts further ih => exact starts.lived.append ih starts.chain.moves further.chain.moves
  | run runs further ih => exact runs.lived.append ih runs.chain.moves further.chain.moves
  | perform performs further ih =>
      exact performs.lived.append ih performs.chain.moves further.chain.moves

/-- The life of a session, in whatever order an embedding and its callbacks use it.  Its
phase only goes on, from one thing that happens to the next; at most one start succeeds; the
callbacks that are run since they waited for it are exactly those that were registered
before it, each once and in their order, after there is a server, the helpers that every
session has and the history; and to run a session that is not running reads nothing and
changes nothing. -/
theorem exists_life (host : Execution (SessionAction ν)) (options : SessionOptions)
    (uses : List (Use ν)) :
    ∃ log, Uses (ofOptions host options) uses log (ofUses host options uses) ∧
      Chain (ofOptions host options) log (ofUses host options uses) ∧
      Life [] log ∧ log.countP Moment.starts ≤ 1 ∧
      ∀ (perform : Performer ν) (session : Session ν),
        (session.phase = .notStarted →
          session.runWith perform = (.error .notStarted, session)) ∧
        (session.phase = .terminated → session.runWith perform = (.ok (), session)) := by
  obtain ⟨log, used⟩ := exists_uses uses (fun _ => rfl : (ofOptions host options).Closed)
  have life := used.lived.life rfl
  refine ⟨log, used, used.chain, life, life.countP_starts_le, fun perform session => ⟨?_, ?_⟩⟩
  · intro unstarted
    simp only [runWith, unstarted]
  · intro terminated
    simp only [runWith, terminated]

/-- A callback that comes to wait while those that waited are run is not run. -/
example :
    (ofUses (Host.execution fun _ _ => .done (.ok .undefined))
      ⟨none, none, .plain, .scripted [], .empty, [], .empty, {}⟩
      [.perform (.onReady (.note "first" (.onReady (.note "late" (.done none)) (.done none)))
        (.onReady (.note "second" (.start fun _ => .done none)) (.done none))),
        .start, .start]).notes = ["first", "second"] := by
  rfl

end Session

end ScriptConsole

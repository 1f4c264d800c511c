import ScriptConsole.Proofs.Session.Frames
import ScriptConsole.Proofs.Session.History

/-!
# What callbacks do, one after the other

The depth to which callbacks are run inside one another bounds no session: every one that
begins is run to its end.  What a callback, a start and a run do is written down here as
relations without a depth, with a log of what happens; the functions are shown to do it.
-/

namespace ScriptConsole

/-- A phase may follow another, or the session stays in it. -/
inductive SessionPhase.Follows : SessionPhase → SessionPhase → Prop where
  | stays (phase : SessionPhase) : Follows phase phase
  | starts : Follows .notStarted .running
  | ends : Follows .running .terminated
  | never : Follows .notStarted .terminated

namespace SessionPhase.Follows

theorem trans {first second third : SessionPhase} (left : Follows first second)
    (right : Follows second third) : Follows first third := by
  cases left <;> cases right <;> constructor

theorem terminated (phase : SessionPhase) : Follows phase .terminated := by
  cases phase <;> constructor

theorem started {first second : SessionPhase} (follows : Follows first second)
    (started : first ≠ .notStarted) : second ≠ .notStarted := by
  rintro rfl
  cases follows
  exact started rfl

end SessionPhase.Follows

namespace InputSource

theorem remaining_next_le (source : InputSource) : source.next.2.remaining ≤ source.remaining := by
  cases source with
  | scripted events => cases events <;> simp [next, remaining]
  | piped bytes =>
      have length := cutLine_length bytes
      simp only [next, remaining]
      omega

end InputSource

theorem Editor.remaining_read_le {editor next : Editor} {prompt : String}
    {console after : Console} {event : Option InputEvent}
    (h : editor.read prompt console = (event, next, after)) :
    next.remaining ≤ editor.remaining := by
  have less := editor.source.remaining_next_le
  unfold Editor.read at h
  split at h <;> cases h <;> rename_i taken <;> rw [taken] at less <;> exact less

theorem Server.remaining_readInput {α : Type} {server next : Server α} {console after : Console}
    {input : Option (ServerInput α)} (h : server.readInput console = (input, next, after)) :
    next.remaining ≤ server.remaining ∧
      ∀ found, input = some found → found ≠ .leave → next.remaining < server.remaining := by
  fun_induction server.readInput console with
  | case1 server console editor shown hread =>
      cases h
      exact ⟨Editor.remaining_read_le hread, by simp⟩
  | case2 server console event editor shown hread found next' printed hreact =>
      cases h
      have kept := remaining_react { server with editor := editor } shown event
      rw [hreact] at kept
      have less := Editor.remaining_read_le hread
      refine ⟨Nat.le_trans (Nat.le_of_eq kept) less, ?_⟩
      rintro _ ⟨⟩ goesOn
      have noEnd : event ≠ .endOfInput := by
        rintro rfl
        simp only [react, Reaction.mk.injEq, Option.some.injEq] at hreact
        exact goesOn hreact.1.symm
      have lower := Editor.remaining_read_lt hread noEnd
      simp only [remaining] at kept ⊢
      omega
  | case3 server console event editor shown hread next' printed hreact ih =>
      have kept := remaining_react { server with editor := editor } shown event
      rw [hreact] at kept
      have less := Editor.remaining_read_le hread
      obtain ⟨further, lower⟩ := ih h
      simp only [remaining] at kept further lower ⊢
      exact ⟨by omega, fun found same goesOn => by have := lower found same goesOn; omega⟩

namespace Session

variable {ν : Type}

/-! ## Steps -/

/-- Before its start a session has no server. -/
def Closed (session : Session ν) : Prop :=
  session.phase = .notStarted → session.world.server = none

/-- How a session may change at a time: its phase goes on, it keeps having a server, and it
gets no more input. -/
structure Moves (before after : Session ν) : Prop where
  phase : before.phase.Follows after.phase
  server : before.world.server.isSome = true → after.world.server.isSome = true
  closed : before.Closed → after.Closed
  remaining : before.Closed → after.remaining ≤ before.remaining

namespace Moves

variable {before middle after : Session ν}

theorem refl (session : Session ν) : Moves session session :=
  ⟨.stays _, id, id, fun _ => Nat.le_refl _⟩

theorem trans (first : Moves before middle) (second : Moves middle after) :
    Moves before after where
  phase := first.phase.trans second.phase
  server := fun served => second.server (first.server served)
  closed := fun closed => second.closed (first.closed closed)
  remaining := fun closed =>
    Nat.le_trans (second.remaining (first.closed closed)) (first.remaining closed)

theorem of_untouched (untouched : Untouched before after) : Moves before after where
  phase := untouched.phase ▸ .stays _
  server := fun served => by
    have related := untouched.server
    cases h : before.world.server <;> cases h' : after.world.server <;> rw [h, h'] at related <;>
      cases related
    · simp [h] at served
    · rfl
  closed := fun closed unstarted => by
    have isClosed := closed (untouched.phase.symm.trans unstarted)
    have related := untouched.server
    rw [isClosed] at related
    cases h : after.world.server with
    | none => rfl
    | some server =>
        rw [h] at related
        cases related
  remaining := fun _ => Nat.le_of_eq untouched.remaining_eq

theorem of_server {server next : Server (SessionAction ν)}
    (isOpen : before.world.server = some server) (less : next.remaining ≤ server.remaining)
    (console : Console) : Moves before (before.withServer next console) where
  phase := .stays _
  server := fun _ => rfl
  closed := fun closed unstarted => by
    have := closed unstarted
    rw [isOpen] at this
    cases this
  remaining := fun _ => by
    simpa [Session.remaining, currentEditor, isOpen, withServer, Server.remaining] using less

theorem of_end (ended : after.phase = .terminated)
    (server : after.world.server = before.world.server) (editor : after.editor = before.editor) :
    Moves before after where
  phase := ended ▸ .terminated _
  server := fun served => server ▸ served
  closed := fun _ unstarted => by
    rw [ended] at unstarted
    cases unstarted
  remaining := fun _ => by simp [Session.remaining, currentEditor, server, editor]

end Moves

theorem moves_close (session : Session ν) : Moves session session.close.2 := by
  obtain ⟨disk, closed, -⟩ := session.close_eq
  rw [closed]
  exact .of_end rfl rfl rfl

theorem moves_read (session : Session ν) : Moves session session.read.2 := by
  unfold read
  split
  · exact .refl session
  · rename_i server isOpen
    split <;> rename_i h <;> exact .of_server isOpen (Server.remaining_readInput h).1 _

/-- To start, a session gets a server with the editor that waited for it. -/
theorem moves_launch {session : Session ν} (unstarted : session.phase = .notStarted) :
    Moves session session.launch where
  phase := unstarted ▸ .starts
  server := fun _ => rfl
  closed := fun _ running => by cases running
  remaining := fun closed => by
    have isClosed := closed unstarted
    simp [remaining, currentEditor, isClosed, launch, notify, printLine, Server.ofEditor,
      Server.define]

theorem moves_setupHistory {session after : Session ν}
    (h : session.setupHistory = (.ok (), after)) : Moves session after := by
  unfold setupHistory at h
  split at h
  · rename_i path server kept isOpen
    split at h
    · rename_i next disk loaded
      cases h
      have less : next.remaining ≤ server.remaining := by
        cases reason : session.disk.historyFailure? path with
        | some failure =>
            obtain ⟨_, refused, -⟩ := Server.setupHistory_of_failure reason server
            cases loaded.symm.trans refused
        | none =>
            obtain ⟨_, _, _, -, -, loaded'⟩ := Server.setupHistory_of_text reason server
            cases loaded.symm.trans loaded'
            exact Nat.le_refl _
      have moved := Moves.of_server isOpen less session.world.console
      exact ⟨moved.phase, moved.server, moved.closed, moved.remaining⟩
    · cases h
  · cases h
    exact .refl session

/-- What a callback does at once, and what of it is left: all but to end, to start or run
the session, and to let a callback wait. -/
def act? (session : Session ν) : Callback ν → Option (Callback ν × Session ν)
  | .done _ | .start _ | .run _ | .onReady _ _ => none
  | .note entry next => some (next, { session with notes := session.notes ++ [entry] })
  | .look next => some (next session.snapshot, session)
  | .close next => some (next session.close.1, session.close.2)
  | .evaluate none code next =>
      some (next (session.evaluate code).1, (session.evaluate code).2)
  | .evaluate (some label) code next =>
      some (next (session.evaluateAs label code).1, (session.evaluateAs label code).2)
  | .addHelper helper next => some (next, session.addHelper helper)
  | .useCompiler compiler next => some (next, session.useCompiler compiler)
  | .notify text next => some (next, session.notify text)
  | .list next => some (next, session.list)
  | .setName name value next => some (next, session.setName name value)
  | .read next => some (next session.read.1, session.read.2)
  | .define name help action next =>
      some (next (session.define name help (.callback action)).1,
        (session.define name help (.callback action)).2)

theorem performWith_of_act? {session after : Session ν} {callback next : Callback ν}
    (acts : session.act? callback = some (next, after)) (perform : Performer ν) :
    performWith perform callback session = performWith perform next after := by
  cases callback with
  | evaluate label => cases label <;> cases acts <;> rfl
  | done | start | run | onReady => cases acts
  | _ =>
      cases acts
      rfl

theorem ready_read (session : Session ν) : session.read.2.ready = session.ready := by
  unfold read
  split
  · rfl
  · split <;> rfl

/-- What a callback does at once moves the session on, and lets no callback wait. -/
theorem moves_act? {session after : Session ν} {callback next : Callback ν}
    (acts : session.act? callback = some (next, after)) :
    Moves session after ∧ after.ready = session.ready := by
  have untouched {after : Session ν} (untouched : Untouched session after) :
      Moves session after ∧ after.ready = session.ready :=
    ⟨.of_untouched untouched, untouched.ready⟩
  have alike {after : Session ν} (world : after.world.server = session.world.server)
      (console : after.world.console = session.world.console)
      (editor : after.editor = session.editor)
      (historyPath : after.historyPath = session.historyPath)
      (ready : after.ready = session.ready) (phase : after.phase = session.phase)
      (disk : after.disk = session.disk) : Moves session after ∧ after.ready = session.ready :=
    untouched (.of_eq world console editor historyPath ready phase disk)
  cases callback with
  | done | start | run | onReady => cases acts
  | note | addHelper | useCompiler | setName =>
      cases acts
      exact alike rfl rfl rfl rfl rfl rfl rfl
  | look =>
      cases acts
      exact ⟨.refl session, rfl⟩
  | close =>
      cases acts
      obtain ⟨disk, closed, -⟩ := session.close_eq
      exact ⟨moves_close session, by rw [closed]⟩
  | evaluate label =>
      cases label <;> cases acts
      · exact untouched (untouched_evaluate session _)
      · exact untouched (untouched_evaluateAs session _ _)
  | notify =>
      cases acts
      exact untouched (untouched_notify session _)
  | list =>
      cases acts
      exact untouched (untouched_list session)
  | read =>
      cases acts
      exact ⟨moves_read session, ready_read session⟩
  | define =>
      cases acts
      exact untouched (untouched_define session _ _ _)

/-! ## What happens -/

inductive LifeEvent (ν : Type) where
  /-- Something is done that does not matter to the start. -/
  | acts
  /-- A callback is to wait for the start. -/
  | registers (callback : Callback ν)
  /-- A start makes a server and the helpers that every session has. -/
  | launches
  /-- The start fails, since its history file cannot be used. -/
  | fails (failure : HistoryFailure)
  /-- The history is loaded, and the callbacks that wait are to be run. -/
  | begins
  /-- A callback that waited is run. -/
  | calls (callback : Callback ν)
  /-- The start has succeeded. -/
  | starts
  /-- A start is refused to a session that has been started or is over. -/
  | refuses
  /-- A session that is not running is to run. -/
  | idles

/-- Something that happens, and the session right after it. -/
structure Moment (ν : Type) where
  event : LifeEvent ν
  session : Session ν

mutual

/-- A callback is run from its beginning to its end: what happens, its cause to fail and
the session after it. -/
inductive Performs : Session ν → Callback ν → List (Moment ν) → Option String → Session ν → Prop
    where
  | done {session : Session ν} (cause : Option String) :
      Performs session (.done cause) [] cause session
  | act {session after final : Session ν} {callback next : Callback ν} {log : List (Moment ν)}
      {cause : Option String} (acts : session.act? callback = some (next, after))
      (further : Performs after next log cause final) :
      Performs session callback (⟨.acts, after⟩ :: log) cause final
  | onReady {session final : Session ν} {callback next : Callback ν} {log : List (Moment ν)}
      {cause : Option String} (further : Performs (session.onReady callback) next log cause final) :
      Performs session (.onReady callback next)
        (⟨.registers callback, session.onReady callback⟩ :: log) cause final
  | start {session after final : Session ν} {next : Except SessionFailure Unit → Callback ν}
      {first log : List (Moment ν)} {result : Except SessionFailure Unit}
      {cause : Option String} (starts : Starts session first result after)
      (further : Performs after (next result) log cause final) :
      Performs session (.start next) (first ++ log) cause final
  | run {session after final : Session ν} {next : Except SessionFailure Unit → Callback ν}
      {first log : List (Moment ν)} {result : Except SessionFailure Unit}
      {cause : Option String} (runs : Runs session first result after)
      (further : Performs after (next result) log cause final) :
      Performs session (.run next) (first ++ log) cause final

/-- A start: it is refused, or it fails for the history file, or it runs all callbacks that
wait. -/
inductive Starts : Session ν → List (Moment ν) → Except SessionFailure Unit → Session ν → Prop
    where
  | refused {session : Session ν} (started : session.phase ≠ .notStarted) :
      Starts session [⟨.refuses, session⟩] (.error .alreadyStarted) session
  | failed {session after : Session ν} {failure : HistoryFailure}
      (unstarted : session.phase = .notStarted)
      (setup : session.launch.setupHistory = (.error failure, after)) :
      Starts session [⟨.launches, session.launch⟩,
        ⟨.fails failure, { after with phase := .terminated }⟩] (.error (.history failure))
        { after with phase := .terminated }
  | succeeded {session after middle : Session ν} {log : List (Moment ν)}
      (unstarted : session.phase = .notStarted)
      (setup : session.launch.setupHistory = (.ok (), after))
      (calls : Calls { after with ready := [] } after.ready log middle) :
      Starts session (⟨.launches, session.launch⟩ :: ⟨.begins, { after with ready := [] }⟩ ::
          (log ++ [⟨.starts, middle.publishCompletions.showPrompt⟩]))
        (.ok ()) middle.publishCompletions.showPrompt

/-- Callbacks that waited are run, each from its beginning to its end. -/
inductive Calls : Session ν → List (Callback ν) → List (Moment ν) → Session ν → Prop where
  | nil {session : Session ν} : Calls session [] [] session
  | cons {session middle final : Session ν} {callback : Callback ν} {others : List (Callback ν)}
      {first log : List (Moment ν)} {cause : Option String}
      (performs : Performs session callback first cause middle)
      (others' : Calls middle others log final) :
      Calls session (callback :: others) (⟨.calls callback, session⟩ :: (first ++ log)) final

/-- A run: nothing happens unless the session is running. -/
inductive Runs : Session ν → List (Moment ν) → Except SessionFailure Unit → Session ν → Prop
    where
  | unstarted {session : Session ν} (unstarted : session.phase = .notStarted) :
      Runs session [⟨.idles, session⟩] (.error .notStarted) session
  | terminated {session : Session ν} (terminated : session.phase = .terminated) :
      Runs session [⟨.idles, session⟩] (.ok ()) session
  | loops {session final : Session ν} {log : List (Moment ν)}
      {result : Except SessionFailure Unit} (running : session.phase = .running)
      (loops : Loops session log result final) : Runs session log result final

/-- The turns of the loop; a directive of the embedding has its callback run. -/
inductive Loops : Session ν → List (Moment ν) → Except SessionFailure Unit → Session ν → Prop
    where
  | ends {session final : Session ν} {result : Except SessionFailure Unit}
      (turned : ∀ perform, session.turn perform = (some result, final)) :
      Loops session [⟨.acts, final⟩] result final
  | goesOn {session after final : Session ν} {log : List (Moment ν)}
      {result : Except SessionFailure Unit}
      (turned : ∀ perform, session.turn perform = (none, after))
      (further : Loops after log result final) :
      Loops session (⟨.acts, after⟩ :: log) result final
  | gaveUp {session final : Session ν} {server next : Server (SessionAction ν)}
      {console : Console} {action : String → Callback ν} {arguments cause : String}
      {log : List (Moment ν)} (isOpen : session.world.server = some server)
      (read : server.readInput session.world.console =
        (some (.directive (.callback action) arguments), next, console))
      (performs : Performs (session.withServer next console) (action arguments) log (some cause)
        final) :
      Loops session (⟨.acts, session.withServer next console⟩ :: log)
        (.error (.directive cause)) final
  | followed {session middle final : Session ν} {server next : Server (SessionAction ν)}
      {console : Console} {action : String → Callback ν} {arguments : String}
      {first log : List (Moment ν)} {result : Except SessionFailure Unit}
      (isOpen : session.world.server = some server)
      (read : server.readInput session.world.console =
        (some (.directive (.callback action) arguments), next, console))
      (performs : Performs (session.withServer next console) (action arguments) first none
        middle)
      (further : Loops middle.settleDown log result final) :
      Loops session (⟨.acts, session.withServer next console⟩ ::
        (first ++ ⟨.acts, middle.settleDown⟩ :: log)) result final

end

/-- What an embedding does with a session, use by use. -/
inductive Uses : Session ν → List (Use ν) → List (Moment ν) → Session ν → Prop where
  | nil {session : Session ν} : Uses session [] [] session
  | start {session after final : Session ν} {uses : List (Use ν)} {first log : List (Moment ν)}
      {result : Except SessionFailure Unit} (starts : Starts session first result after)
      (further : Uses after uses log final) : Uses session (.start :: uses) (first ++ log) final
  | run {session after final : Session ν} {uses : List (Use ν)} {first log : List (Moment ν)}
      {result : Except SessionFailure Unit} (runs : Runs session first result after)
      (further : Uses after uses log final) : Uses session (.run :: uses) (first ++ log) final
  | perform {session after final : Session ν} {callback : Callback ν} {uses : List (Use ν)}
      {first log : List (Moment ν)} {cause : Option String}
      (performs : Performs session callback first cause after)
      (further : Uses after uses log final) :
      Uses session (.perform callback :: uses) (first ++ log) final

/-! ## The chain of sessions -/

/-- The sessions of a log, each moved on from the one before it. -/
inductive Chain : Session ν → List (Moment ν) → Session ν → Prop where
  | nil (session : Session ν) : Chain session [] session
  | cons {before after : Session ν} {moment : Moment ν} {log : List (Moment ν)}
      (moves : Moves before moment.session) (rest : Chain moment.session log after) :
      Chain before (moment :: log) after

namespace Chain

variable {before middle after : Session ν} {log more : List (Moment ν)}

theorem single {moment : Moment ν} (moves : Moves before moment.session) :
    Chain before [moment] moment.session :=
  .cons moves (.nil _)

theorem append (first : Chain before log middle) (second : Chain middle more after) :
    Chain before (log ++ more) after := by
  induction first with
  | nil => exact second
  | cons moves _ ih => exact .cons moves (ih second)

theorem moves (chain : Chain before log after) : Moves before after := by
  induction chain with
  | nil session => exact .refl session
  | cons moves _ ih => exact moves.trans ih

theorem served (chain : Chain before log after) (served : before.world.server.isSome = true) :
    ∀ moment ∈ log, moment.session.world.server.isSome = true := by
  induction chain with
  | nil => simp
  | cons moves _ ih =>
      rw [List.forall_mem_cons]
      exact ⟨moves.server served, ih (moves.server served)⟩

end Chain

theorem moves_readInput {session : Session ν} {server next : Server (SessionAction ν)}
    {console : Console} {input : Option (ServerInput (SessionAction ν))}
    (isOpen : session.world.server = some server)
    (read : server.readInput session.world.console = (input, next, console)) :
    Moves session (session.withServer next console) :=
  .of_server isOpen (Server.remaining_readInput read).1 console

/-- A session is left with less input by an input that is no end. -/
theorem remaining_withServer_lt {session : Session ν} {server next : Server (SessionAction ν)}
    {console : Console} {input : ServerInput (SessionAction ν)}
    (isOpen : session.world.server = some server)
    (read : server.readInput session.world.console = (some input, next, console))
    (goesOn : input ≠ .leave) :
    (session.withServer next console).remaining < session.remaining := by
  have lower := (Server.remaining_readInput read).2 input rfl goesOn
  simpa [remaining, currentEditor, isOpen, withServer, Server.remaining] using lower

/-- What a turn of the loop does is the same for all ways to run callbacks, unless it reads
a directive of the embedding. -/
theorem cases_turn (session : Session ν) :
    (∃ result after, (∀ perform, session.turn perform = (result, after)) ∧
      Moves session after ∧ (result = none → after.remaining < session.remaining)) ∨
    ∃ server next console action arguments, session.world.server = some server ∧
      server.readInput session.world.console =
        (some (.directive (.callback action) arguments), next, console) ∧
      Moves session (session.withServer next console) ∧
      (session.withServer next console).remaining < session.remaining ∧
      ∀ perform : Performer ν, session.turn perform =
        (session.withServer next console).obey perform
          (.directive (.callback action) arguments) := by
  cases isOpen : session.world.server with
  | none =>
      exact .inl ⟨some (.error .notStarted), session, by simp [turn, isOpen], .refl session,
        by simp⟩
  | some server =>
      obtain ⟨⟨input, next, console⟩, read⟩ :
          ∃ found, server.readInput session.world.console = found := ⟨_, rfl⟩
      have moves := moves_readInput isOpen read
      have goesOn {found : ServerInput (SessionAction ν)} {after : Session ν}
          (same : input = some found) (noEnd : found ≠ .leave)
          (turned : ∀ perform, session.turn perform = (none, after))
          (untouched : Untouched (session.withServer next console) after) :
          ∃ result after, (∀ perform, session.turn perform = (result, after)) ∧
            Moves session after ∧ (result = none → after.remaining < session.remaining) :=
        ⟨none, after, turned, moves.trans (.of_untouched untouched), fun _ =>
          untouched.remaining_eq ▸ remaining_withServer_lt isOpen (same ▸ read) noEnd⟩
      cases input with
      | none =>
          exact .inl ⟨some (.error (.input notTextMessage)), session.withServer next console,
            by simp [turn, isOpen, read], moves, by simp⟩
      | some input =>
          cases input with
          | leave =>
              exact .inl ⟨some (session.withServer next console).close.1, _,
                by simp [turn, isOpen, read, obey], moves.trans (moves_close _), by simp⟩
          | statement code =>
              exact .inl (goesOn rfl (by simp) (by simp [turn, isOpen, read, obey])
                ((untouched_handleStatement _ code).trans (untouched_settleDown _)))
          | directive action arguments =>
              cases action with
              | list =>
                  exact .inl (goesOn rfl (by simp) (by simp [turn, isOpen, read, obey, follow])
                    ((untouched_list _).trans (untouched_settleDown _)))
              | callback action =>
                  exact .inr ⟨server, next, console, action, arguments, rfl, read, moves,
                    remaining_withServer_lt isOpen read (by simp),
                    fun perform => by simp [turn, isOpen, read]⟩

theorem moves_failed {session after : Session ν} {failure : HistoryFailure}
    (setup : session.setupHistory = (.error failure, after)) :
    Moves session { after with phase := .terminated } := by
  obtain ⟨server, editor, -⟩ := server_of_setupHistory setup
  exact .of_end rfl server editor

theorem moves_withReady (session : Session ν) (ready : List (Callback ν)) :
    Moves session { session with ready := ready } :=
  ⟨.stays _, id, id, fun _ => Nat.le_refl _⟩

theorem moves_started (session : Session ν) :
    Moves session session.publishCompletions.showPrompt :=
  .of_untouched ((untouched_publishCompletions session).trans (untouched_showPrompt _))

theorem moves_turn {session after : Session ν}
    {result : Option (Except SessionFailure Unit)}
    (turned : ∀ perform, session.turn perform = (result, after)) : Moves session after := by
  rcases cases_turn session with ⟨result', after', turned', moves, -⟩ |
      ⟨server, next, console, action, arguments, isOpen, read, moves, -, turned'⟩
  · cases (turned fun _ session => (none, session)).symm.trans (turned' _)
    exact moves
  · have quiet := (turned fun _ session => (none, session)).symm.trans (turned' _)
    simp only [obey, follow] at quiet
    cases quiet
    exact moves.trans (.of_untouched (untouched_settleDown _))

mutual

theorem Performs.chain {session final : Session ν} {callback : Callback ν}
    {log : List (Moment ν)} {cause : Option String} :
    Performs session callback log cause final → Chain session log final
  | .done _ => .nil _
  | .act acts further => .cons (moves_act? acts).1 further.chain
  | .onReady further => .cons (moves_withReady _ _) further.chain
  | .start starts further => starts.chain.append further.chain
  | .run runs further => runs.chain.append further.chain

theorem Starts.chain {session final : Session ν} {log : List (Moment ν)}
    {result : Except SessionFailure Unit} :
    Starts session log result final → Chain session log final
  | .refused _ => .single (.refl _)
  | .failed unstarted setup => .cons (moves_launch unstarted) (.single (moves_failed setup))
  | .succeeded unstarted setup calls =>
      .cons (moves_launch unstarted)
        (.cons ((moves_setupHistory setup).trans (moves_withReady _ _))
          (calls.chain.append (.single (moves_started _))))

theorem Calls.chain {session final : Session ν} {callbacks : List (Callback ν)}
    {log : List (Moment ν)} : Calls session callbacks log final → Chain session log final
  | .nil => .nil _
  | .cons performs others => .cons (.refl _) (performs.chain.append others.chain)

theorem Runs.chain {session final : Session ν} {log : List (Moment ν)}
    {result : Except SessionFailure Unit} :
    Runs session log result final → Chain session log final
  | .unstarted _ | .terminated _ => .single (.refl _)
  | .loops _ loops => loops.chain

theorem Loops.chain {session final : Session ν} {log : List (Moment ν)}
    {result : Except SessionFailure Unit} :
    Loops session log result final → Chain session log final
  | .ends turned => .single (moves_turn turned)
  | .goesOn turned further => .cons (moves_turn turned) further.chain
  | .gaveUp isOpen read performs => .cons (moves_readInput isOpen read) performs.chain
  | .followed isOpen read performs further =>
      .cons (moves_readInput isOpen read)
        (performs.chain.append (.cons (.of_untouched (untouched_settleDown _)) further.chain))

end

theorem Uses.chain {session final : Session ν} {uses : List (Use ν)} {log : List (Moment ν)}
    (used : Uses session uses log final) : Chain session log final := by
  induction used with
  | nil => exact .nil _
  | start starts _ ih => exact starts.chain.append ih
  | run runs _ ih => exact runs.chain.append ih
  | perform performs _ ih => exact performs.chain.append ih

/-! ## The depth suffices -/

/-- How many callbacks there can still be inside one another: one for the start, and one for
every line of input. -/
def need (session : Session ν) : Nat :=
  session.remaining + if session.phase = .notStarted then 1 else 0

theorem need_of_started {session : Session ν} (started : session.phase ≠ .notStarted) :
    session.need = session.remaining := by
  simp [need, started]

theorem closed_of_started {session : Session ν} (started : session.phase ≠ .notStarted) :
    session.Closed :=
  fun unstarted => absurd unstarted started

theorem Moves.need_le {before after : Session ν} (moves : Moves before after)
    (closed : before.Closed) : after.need ≤ before.need := by
  have less := moves.remaining closed
  unfold need
  by_cases started : before.phase = .notStarted
  · rw [if_pos started]
    split <;> omega
  · rw [if_neg started, if_neg (moves.phase.started started)]
    omega

/-- A performer that runs every callback to its end, if a session needs less than a depth. -/
def Realizes (bound : Nat) (perform : Performer ν) : Prop :=
  ∀ callback session, session.Closed → session.need < bound →
    ∃ log, Performs session callback log (perform callback session).1 (perform callback session).2

section Realizing

variable {bound : Nat} {perform : Performer ν} {session : Session ν}

theorem exists_calls (realizes : Realizes bound perform) (callbacks : List (Callback ν))
    (closed : session.Closed) (enough : session.need < bound) :
    ∃ log, Calls session callbacks log
      (callbacks.foldl (fun session callback => (perform callback session).2) session) := by
  induction callbacks generalizing session with
  | nil => exact ⟨[], .nil⟩
  | cons callback others ih =>
      obtain ⟨first, performs⟩ := realizes callback session closed enough
      have moves := performs.chain.moves
      obtain ⟨log, calls⟩ := ih (moves.closed closed)
        (Nat.lt_of_le_of_lt (moves.need_le closed) enough)
      exact ⟨_, .cons performs calls⟩

theorem exists_starts (realizes : Realizes bound perform) (closed : session.Closed)
    (enough : session.need < bound + 1) :
    ∃ log, Starts session log (session.startWith perform).1 (session.startWith perform).2 := by
  by_cases unstarted : session.phase = .notStarted
  · obtain ⟨⟨result, after⟩, setup⟩ : ∃ found, session.launch.setupHistory = found := ⟨_, rfl⟩
    cases result with
    | error failure =>
        have failed := Starts.failed unstarted setup
        exact ⟨_, by simpa only [startWith, unstarted, setup] using failed⟩
    | ok =>
        have launched := (moves_launch unstarted).trans
          ((moves_setupHistory setup).trans (moves_withReady after []))
        have started : ({ after with ready := [] } : Session ν).phase ≠ .notStarted :=
          (moves_setupHistory setup).phase.started (by rintro ⟨⟩)
        have less := launched.remaining closed
        have lower : ({ after with ready := [] } : Session ν).need < bound := by
          rw [need_of_started started]
          simp only [need, unstarted, if_true] at enough
          omega
        obtain ⟨log, calls⟩ := exists_calls realizes after.ready
          (launched.closed closed) lower
        have succeeded := Starts.succeeded unstarted setup calls
        exact ⟨_, by simpa only [startWith, unstarted, setup, runReady] using succeeded⟩
  · refine ⟨[⟨.refuses, session⟩], ?_⟩
    have refused := Starts.refused unstarted
    cases phase : session.phase with
    | notStarted => exact absurd phase unstarted
    | running | terminated => simpa only [startWith, phase] using refused

/-- There are turns enough for the input, and every callback that a turn runs has less of it
than the turn. -/
theorem exists_loops (realizes : Realizes bound perform) {turns : Nat}
    (started : session.phase ≠ .notStarted) (enough : session.remaining < bound + 1)
    (more : session.remaining < turns) :
    ∃ log, Loops session log (loop perform turns session).1 (loop perform turns session).2 := by
  induction turns generalizing session with
  | zero => omega
  | succ turns ih =>
      rcases cases_turn session with ⟨result, after, turned, moves, less⟩ |
          ⟨server, next, console, action, arguments, isOpen, read, moves, less, turned⟩
      · cases result with
        | some result =>
            refine ⟨[⟨.acts, after⟩], ?_⟩
            rw [loop, turned]
            exact .ends turned
        | none =>
            have lower := less rfl
            obtain ⟨log, further⟩ := ih (moves.phase.started started) (by omega) (by omega)
            refine ⟨⟨.acts, after⟩ :: log, ?_⟩
            rw [loop, turned]
            exact .goesOn turned further
      · have started' : (session.withServer next console).phase ≠ .notStarted := started
        have lower : (session.withServer next console).need < bound := by
          rw [need_of_started started']
          omega
        obtain ⟨first, performs⟩ := realizes (action arguments) (session.withServer next console)
          (closed_of_started started') lower
        have moves' := performs.chain.moves
        rw [loop, turned, obey, follow]
        obtain ⟨⟨cause, after⟩, performed⟩ :
            ∃ found, perform (action arguments) (session.withServer next console) = found :=
          ⟨_, rfl⟩
        rw [performed] at performs moves' ⊢
        cases cause with
        | some cause => exact ⟨_, .gaveUp isOpen read performs⟩
        | none =>
            have settled := moves'.trans (.of_untouched (untouched_settleDown after))
            have fewer := settled.remaining (closed_of_started started')
            obtain ⟨log, further⟩ := ih (settled.phase.started started') (by omega) (by omega)
            exact ⟨_, .followed isOpen read performs further⟩

theorem exists_runs (realizes : Realizes bound perform) (enough : session.need < bound + 1) :
    ∃ log, Runs session log (session.runWith perform).1 (session.runWith perform).2 := by
  cases phase : session.phase with
  | notStarted =>
      refine ⟨[⟨.idles, session⟩], ?_⟩
      simpa only [runWith, phase] using Runs.unstarted phase
  | terminated =>
      refine ⟨[⟨.idles, session⟩], ?_⟩
      simpa only [runWith, phase] using Runs.terminated phase
  | running =>
      have started : session.phase ≠ .notStarted := by simp [phase]
      rw [need_of_started started] at enough
      obtain ⟨log, loops⟩ := exists_loops realizes started enough (Nat.lt_succ_self _)
      refine ⟨log, ?_⟩
      simpa only [runWith, phase] using Runs.loops phase loops

end Realizing

/-- A callback is run to its end if those that it gives rise to are. -/
theorem realizes_performWith {bound : Nat} {perform : Performer ν}
    (realizes : Realizes bound perform) : Realizes (bound + 1) (performWith perform) := by
  have act {session after : Session ν} {callback next : Callback ν}
      (acts : session.act? callback = some (next, after)) (closed : session.Closed)
      (enough : session.need < bound + 1)
      (ih : ∀ session, session.Closed → session.need < bound + 1 →
        ∃ log, Performs session next log (performWith perform next session).1
          (performWith perform next session).2) :
      ∃ log, Performs session callback log (performWith perform callback session).1
        (performWith perform callback session).2 := by
    have moves := (moves_act? acts).1
    obtain ⟨log, further⟩ := ih after (moves.closed closed)
      (Nat.lt_of_le_of_lt (moves.need_le closed) enough)
    rw [performWith_of_act? acts]
    exact ⟨_, .act acts further⟩
  intro callback
  induction callback with
  | done cause => exact fun session _ _ => ⟨[], .done cause⟩
  | note entry next ih => exact fun session closed enough => act rfl closed enough ih
  | look next ih => exact fun session closed enough => act rfl closed enough (ih _)
  | close next ih => exact fun session closed enough => act rfl closed enough (ih _)
  | evaluate label code next ih =>
      cases label <;> exact fun session closed enough => act rfl closed enough (ih _)
  | addHelper helper next ih => exact fun session closed enough => act rfl closed enough ih
  | useCompiler compiler next ih => exact fun session closed enough => act rfl closed enough ih
  | notify text next ih => exact fun session closed enough => act rfl closed enough ih
  | list next ih => exact fun session closed enough => act rfl closed enough ih
  | setName name value next ih => exact fun session closed enough => act rfl closed enough ih
  | read next ih => exact fun session closed enough => act rfl closed enough (ih _)
  | define name help action next _ ih =>
      exact fun session closed enough => act rfl closed enough (ih _)
  | onReady callback next _ ih =>
      intro session closed enough
      obtain ⟨log, further⟩ := ih (session.onReady callback) closed enough
      exact ⟨_, .onReady further⟩
  | start next ih =>
      intro session closed enough
      obtain ⟨first, starts⟩ := exists_starts realizes closed enough
      have moves := starts.chain.moves
      obtain ⟨log, further⟩ := ih (session.startWith perform).1 (session.startWith perform).2
        (moves.closed closed) (Nat.lt_of_le_of_lt (moves.need_le closed) enough)
      exact ⟨_, .start starts further⟩
  | run next ih =>
      intro session closed enough
      obtain ⟨first, runs⟩ := exists_runs realizes enough
      have moves := runs.chain.moves
      obtain ⟨log, further⟩ := ih (session.runWith perform).1 (session.runWith perform).2
        (moves.closed closed) (Nat.lt_of_le_of_lt (moves.need_le closed) enough)
      exact ⟨_, .run runs further⟩

theorem realizes_performAt (depth : Nat) :
    Realizes (depth + 1) (performAt depth : Performer ν) := by
  induction depth with
  | zero => exact realizes_performWith fun _ _ _ enough => absurd enough (Nat.not_lt_zero _)
  | succ depth ih => exact realizes_performWith ih

theorem need_lt_callbackDepth (session : Session ν) : session.need < session.callbackDepth := by
  unfold need callbackDepth
  split <;> omega

/-- Every use of a session does what it is to do, however deep callbacks lie inside one
another. -/
theorem exists_uses (uses : List (Use ν)) {session : Session ν} (closed : session.Closed) :
    ∃ log, Uses session uses log (uses.foldl use session) := by
  induction uses generalizing session with
  | nil => exact ⟨[], .nil⟩
  | cons first uses ih =>
      have realizes := realizes_performAt (ν := ν) session.callbackDepth
      have enough := Nat.lt_succ_of_lt session.need_lt_callbackDepth
      cases first with
      | start =>
          obtain ⟨log, starts⟩ := exists_starts realizes closed (Nat.lt_succ_of_lt enough)
          obtain ⟨more, further⟩ := ih (starts.chain.moves.closed closed)
          exact ⟨_, .start starts further⟩
      | run =>
          obtain ⟨log, runs⟩ := exists_runs realizes (Nat.lt_succ_of_lt enough)
          obtain ⟨more, further⟩ := ih (runs.chain.moves.closed closed)
          exact ⟨_, .run runs further⟩
      | perform callback =>
          obtain ⟨log, performs⟩ := realizes callback session closed enough
          obtain ⟨more, further⟩ := ih (performs.chain.moves.closed closed)
          exact ⟨_, .perform performs further⟩

end Session

end ScriptConsole

import ScriptConsole.Proofs.Server.Effects
import ScriptConsole.Session

/-!
# The course of a session

Whatever an embedding does with a session, and however callbacks, directives and
runs lie inside one another, the session goes through deeds of a few kinds, one
after the other: something is written, an event is read, a statement is
evaluated.  The log of the deeds is kept latest first, as the console keeps its
events.
-/

namespace ScriptConsole

namespace Editor

/-- The prompt that a read shows itself, unless one was shown ahead of it. -/
def ownPrompt (editor : Editor) (prompt : String) : List ConsoleEvent :=
  if editor.promptShown then [] else [.prompt prompt]

theorem ensurePrompt_eq (editor : Editor) (prompt : String) (console : Console) :
    editor.ensurePrompt prompt console = ⟨editor.ownPrompt prompt ++ console.events⟩ := by
  unfold ensurePrompt ownPrompt
  split <;> rfl

variable {editor next : Editor} {prompt : String} {console after : Console}

theorem eq_of_read_some {event : InputEvent}
    (h : editor.read prompt console = (some event, next, after)) :
    next.promptShown = false ∧ ∃ echoed,
      after = ⟨.read event echoed :: (editor.ownPrompt prompt ++ console.events)⟩ := by
  unfold read at h
  split at h
  · cases h
  · cases h
    rw [ensurePrompt_eq]
    exact ⟨rfl, _, rfl⟩

theorem eq_of_read_none (h : editor.read prompt console = (none, next, after)) :
    next.promptShown = false ∧ after = ⟨editor.ownPrompt prompt ++ console.events⟩ := by
  unfold read at h
  split at h
  · cases h
    exact ⟨rfl, ensurePrompt_eq ..⟩
  · cases h

end Editor

namespace Session

variable {ν : Type}

/-- What happens in a session. -/
inductive Deed where
  /-- Events are written, but nothing is read or evaluated. -/
  | wrote (written : List ConsoleEvent)
  /-- The session starts, and has a server from now on. -/
  | launched (written : List ConsoleEvent)
  /-- An event is read, after a prompt if none is shown yet; it has an effect on the
  buffered lines and leads to lines that are printed. -/
  | read (shown : List ConsoleEvent) (event : InputEvent) (echoed : Bool) (effect : Effect)
      (printed : List ConsoleEvent)
  /-- Input is read that is no text. -/
  | unreadable (shown : List ConsoleEvent)
  /-- The buffered lines are evaluated, events are written in doing so, and the result
  is reported. -/
  | evaluated (code : String) (result : Except EvalError Value)
      (written reported : List ConsoleEvent)

def Deed.events : Deed → List ConsoleEvent
  | wrote written | launched written => written
  | read shown event echoed _ printed => printed ++ .read event echoed :: shown
  | unreadable shown => shown
  | evaluated code _ written reported => reported ++ (written ++ [.evaluated code])

/-- A session that reads nothing and evaluates nothing, but writes some events. -/
structure Quiet (before : Session ν) (written : List ConsoleEvent) (after : Session ν) :
    Prop where
  events : after.world.console.events = written ++ before.world.console.events
  allowed : ∀ event ∈ written, World.MayWrite before.world.server event
  server : Option.Rel (Server.Kept written) before.world.server after.world.server
  editor : after.editor = before.editor
  phase : after.phase = .notStarted → before.phase = .notStarted

theorem Quiet.closed_or_open {before after : Session ν} {written : List ConsoleEvent}
    (quiet : Quiet before written after) :
    (before.world.server = none ∧ after.world.server = none) ∨
      ∃ server next, before.world.server = some server ∧ after.world.server = some next ∧
        Server.Kept written server next := by
  have related := quiet.server
  cases h : before.world.server <;> cases h' : after.world.server <;> rw [h, h'] at related
  · exact .inl ⟨rfl, rfl⟩
  · cases related
  · cases related
  · obtain ⟨kept⟩ := related
    exact .inr ⟨_, _, rfl, rfl, kept⟩

theorem currentEditor_of_open {session : Session ν} {server : Server (SessionAction ν)}
    (isOpen : session.world.server = some server) : session.currentEditor = server.editor := by
  simp [currentEditor, isOpen]

theorem currentEditor_of_closed {session : Session ν} (closed : session.world.server = none) :
    session.currentEditor = session.editor := by
  simp [currentEditor, closed]

/-- A session that notes that a statement is evaluated. -/
def noting (session : Session ν) (code : String) : Session ν :=
  { session with
    world := { session.world with console := session.world.console.record (.evaluated code) } }

/-- The session in which a statement has been evaluated, before the result is
reported. -/
def evaluated (session : Session ν) (code : String) : Session ν :=
  ((session.noting code).evaluate code).2

/-- What the evaluation of a statement gives. -/
def outcome (session : Session ν) (code : String) : Except EvalError Value :=
  ((session.noting code).evaluate code).1

/-- What is printed as the result of a statement. -/
def reported (session : Session ν) (code : String) : List ConsoleEvent :=
  let world := (session.evaluated code).world
  match session.outcome code with
  | .ok value => [.line (Server.resultLine world.palette world.promises value)]
  | .error (.failed error) => [.line (Server.errorLine world.palette error)]
  | .error (.unfinished _) => []

theorem handleStatement_eq (session : Session ν) (code : String) :
    session.handleStatement code = (session.evaluated code).report (session.outcome code) :=
  rfl

inductive Does : Session ν → Deed → Session ν → Prop where
  | wrote {before after : Session ν} {written : List ConsoleEvent}
      (quiet : Quiet before written after) : Does before (.wrote written) after
  | launched {before : Session ν} {written : List ConsoleEvent}
      (closed : before.world.server = none)
      (events : before.launch.world.console.events = written ++ before.world.console.events)
      (lines : ∀ event ∈ written, event.isLine = true) :
      Does before (.launched written) before.launch
  | read {before : Session ν} {server next : Server (SessionAction ν)} {event : InputEvent}
      {editor : Editor} {console : Console} {echoed : Bool} {printed : List ConsoleEvent}
      {input? : Option (ServerInput (SessionAction ν))}
      (isOpen : before.world.server = some server)
      (named : Directive.DropsByName server.directives)
      (taken : server.editor.read server.currentPrompt before.world.console =
        (some event, editor, console))
      (transcript : console.events = .read event echoed ::
        (server.editor.ownPrompt server.currentPrompt ++ before.world.console.events))
      (reacted : { server with editor := editor }.react console event =
        ⟨input?, next, ⟨printed ++ console.events⟩⟩)
      (reacts : { server with editor := editor }.Reacts event next printed) :
      Does before (.read (server.editor.ownPrompt server.currentPrompt) event echoed
        (server.effect event) printed) (before.withServer next ⟨printed ++ console.events⟩)
  | unreadable {before : Session ν} {server : Server (SessionAction ν)} {editor : Editor}
      {console : Console} (isOpen : before.world.server = some server)
      (taken : server.editor.read server.currentPrompt before.world.console =
        (none, editor, console)) :
      Does before (.unreadable (server.editor.ownPrompt server.currentPrompt))
        (before.withServer { server with editor := editor } console)
  | evaluated {before : Session ν} {server : Server (SessionAction ν)} {code : String}
      {written : List ConsoleEvent} (isOpen : before.world.server = some server)
      (joined : code = "\n".intercalate server.buffer)
      (writes : (before.noting code).world.Writes written (before.evaluated code).world) :
      Does before (.evaluated code (before.outcome code) written (before.reported code))
        (before.handleStatement code)

/-- The deeds that lead from one session to another, latest first. -/
inductive Course (start : Session ν) : List Deed → Session ν → Prop where
  | refl : Course start [] start
  | step {log : List Deed} {middle after : Session ν} {deed : Deed}
      (before : Course start log middle) (does : Does middle deed after) :
      Course start (deed :: log) after

namespace Course

variable {start middle finish : Session ν}

theorem append {log more : List Deed} (first : Course start log middle)
    (second : Course middle more finish) : Course start (more ++ log) finish := by
  induction second with
  | refl => exact first
  | step _ does ih => exact .step ih does

theorem single {deed : Deed} (does : Does start deed finish) : Course start [deed] finish :=
  .step .refl does

/-- Every deed of a course leads from the deeds before it to those after it. -/
theorem exists_of_append {later earlier : List Deed} {deed : Deed}
    (course : Course start (later ++ deed :: earlier) finish) :
    ∃ before after, Course start earlier before ∧ Does before deed after ∧
      Course after later finish := by
  induction later generalizing finish with
  | nil =>
      obtain @⟨⟩ | ⟨before, does⟩ := course
      exact ⟨_, _, before, does, .refl⟩
  | cons last later ih =>
      obtain @⟨⟩ | ⟨before, does⟩ := course
      obtain ⟨left, right, first, here, rest⟩ := ih before
      exact ⟨left, right, first, here, .step rest does⟩

end Course

/-- What holds of a session at any time: before its start it has no server. -/
structure Sound (session : Session ν) : Prop where
  closed : session.phase = .notStarted → session.world.server = none
  named : ∀ server, session.world.server = some server →
    Directive.DropsByName server.directives

theorem sound_ofOptions (host : Execution (SessionAction ν)) (options : SessionOptions) :
    (ofOptions host options : Session ν).Sound where
  closed _ := rfl
  named _ h := by cases h

/-- One session leads to another through deeds. -/
def Leads (before after : Session ν) : Prop :=
  before.Sound → after.Sound ∧ ∃ log, Course before log after

namespace Leads

variable {before middle after : Session ν}

theorem refl (session : Session ν) : Leads session session :=
  fun sound => ⟨sound, [], .refl⟩

theorem trans (first : Leads before middle) (second : Leads middle after) :
    Leads before after := by
  intro sound
  obtain ⟨sound, log, left⟩ := first sound
  obtain ⟨sound, more, right⟩ := second sound
  exact ⟨sound, more ++ log, left.append right⟩

theorem of_quiet {written : List ConsoleEvent} (quiet : Quiet before written after) :
    Leads before after := by
  intro sound
  refine ⟨?_, _, .single (.wrote quiet)⟩
  obtain ⟨-, closed⟩ | ⟨server, next, isOpen, isOpen', kept⟩ := quiet.closed_or_open
  · refine ⟨fun _ => closed, fun server isOpen => ?_⟩
    rw [closed] at isOpen
    cases isOpen
  · refine ⟨fun unstarted => ?_, fun other same => ?_⟩
    · have closed := sound.closed (quiet.phase unstarted)
      rw [isOpen] at closed
      cases closed
    · obtain rfl := Option.some.inj (isOpen'.symm.trans same)
      exact kept.named (sound.named server isOpen)

theorem of_prints (prints : before.world.Prints after.world) (editor : after.editor = before.editor)
    (phase : after.phase = .notStarted → before.phase = .notStarted) : Leads before after := by
  obtain ⟨written, writes⟩ := prints
  exact of_quiet ⟨congrArg Console.events writes.console, writes.events,
    Server.LeftAlone.rel_kept writes.server, editor, phase⟩

theorem of_kept {server next : Server (SessionAction ν)}
    (isOpen : before.world.server = some server) (kept : Server.Kept [] server next)
    (console : after.world.console = before.world.console)
    (isOpen' : after.world.server = some next) (editor : after.editor = before.editor)
    (phase : after.phase = .notStarted → before.phase = .notStarted) : Leads before after := by
  have related : Option.Rel (Server.Kept []) before.world.server after.world.server := by
    rw [isOpen, isOpen']
    exact .some kept
  have quiet : Quiet before [] after :=
    ⟨congrArg Console.events console, by simp, related, editor, phase⟩
  exact of_quiet quiet

end Leads

end Session

end ScriptConsole

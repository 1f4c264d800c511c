import ScriptConsole.Proofs.Session.Execution

/-!
# Lines that wait

The lines of code that are read wait in the buffer, in order, until they are
done with: a statement made of exactly these lines is concluded, or they are
dropped together.  So every line of code belongs to one such group, or is still
waiting at the end.
-/

namespace ScriptConsole

namespace Session

variable {ν : Type}

/-- The lines that are buffered in a session. -/
def buffer (session : Session ν) : List String :=
  match session.world.server with
  | none => []
  | some server => server.buffer

theorem buffer_of_open {session : Session ν} {server : Server (SessionAction ν)}
    (isOpen : session.world.server = some server) : session.buffer = server.buffer := by
  simp [buffer, isOpen]

theorem buffer_of_closed {session : Session ν} (closed : session.world.server = none) :
    session.buffer = [] := by
  simp [buffer, closed]

namespace Deed

def taken : Deed → List String
  | read _ _ _ (.takes line) _ => [line]
  | read _ _ _ .keeps _ | read _ _ _ .drops _ => []
  | wrote _ | launched _ | unreadable _ | evaluated _ _ _ _ => []

/-- Whether the waiting lines are done with: they are dropped, or made a statement that
gives a value or an error. -/
def ends : Deed → Bool
  | read _ _ _ .drops _ => true
  | read _ _ _ .keeps _ | read _ _ _ (.takes _) _ => false
  | evaluated _ (.error (.unfinished _)) _ _ => false
  | evaluated _ (.ok _) _ _ | evaluated _ (.error (.failed _)) _ _ => true
  | wrote _ | launched _ | unreadable _ => false

end Deed

/-- The lines of code that were read since no line was waiting, in order. -/
def pending : List Deed → List String
  | [] => []
  | deed :: earlier => if deed.ends then [] else pending earlier ++ deed.taken

/-- How a deed deals with the lines that wait when it begins. -/
inductive Handles (lines : List String) : Session ν → Deed → Session ν → Prop where
  | wrote {before after : Session ν} {written : List ConsoleEvent}
      (same : after.buffer = lines) : Handles lines before (.wrote written) after
  | launched {before after : Session ν} {written : List ConsoleEvent}
      (same : after.buffer = lines) : Handles lines before (.launched written) after
  /-- A line of code waits after the others. -/
  | took {before after : Session ν} {server : Server (SessionAction ν)} {line : String}
      {shown printed : List ConsoleEvent} {echoed : Bool}
      (isOpen : before.world.server = some server)
      (isCode : server.IsCode line) (buffered : after.buffer = lines ++ [line])
      (workspace : after.world.workspace = before.world.workspace) :
      Handles lines before (.read shown (.line line) echoed (.takes line) printed) after
  /-- An interrupt or a directive drops the lines. -/
  | dropped {before after : Session ν} {server : Server (SessionAction ν)} {event : InputEvent}
      {shown printed : List ConsoleEvent} {echoed : Bool}
      (isOpen : before.world.server = some server)
      (drops : server.DropsAt event) (emptied : after.buffer = [])
      (workspace : after.world.workspace = before.world.workspace) :
      Handles lines before (.read shown event echoed .drops printed) after
  /-- What is no line of code changes neither the lines nor the names. -/
  | passed {before after : Session ν} {server : Server (SessionAction ν)} {event : InputEvent}
      {shown printed : List ConsoleEvent} {echoed : Bool}
      (isOpen : before.world.server = some server)
      (noCode : ∀ line, event = .line line → ¬server.IsCode line)
      (same : after.buffer = lines)
      (workspace : after.world.workspace = before.world.workspace) :
      Handles lines before (.read shown event echoed .keeps printed) after
  | unreadable {before after : Session ν} {shown : List ConsoleEvent}
      (same : after.buffer = lines)
      (workspace : after.world.workspace = before.world.workspace) :
      Handles lines before (.unreadable shown) after
  /-- The lines give a value, which is printed after all that the evaluation wrote. -/
  | gave {before after : Session ν} {code : String} {value : Value}
      {written reported : List ConsoleEvent} (joined : code = "\n".intercalate lines)
      (outcome : before.outcome code = .ok value)
      (console : after.world.console = (before.evaluated code).world.console.record
        (.line (Server.resultLine (before.evaluated code).world.palette
          (before.evaluated code).world.promises value)))
      (emptied : after.buffer = []) :
      Handles lines before (.evaluated code (.ok value) written reported) after
  /-- The lines give an error, which is printed after all that the evaluation wrote. -/
  | failed {before after : Session ν} {code : String} {error : ScriptError}
      {written reported : List ConsoleEvent} (joined : code = "\n".intercalate lines)
      (outcome : before.outcome code = .error (.failed error))
      (console : after.world.console = (before.evaluated code).world.console.record
        (.line (Server.errorLine (before.evaluated code).world.palette error)))
      (emptied : after.buffer = []) :
      Handles lines before (.evaluated code (.error (.failed error)) written reported) after
  /-- The lines are no whole statement yet; nothing is printed and they go on waiting. -/
  | unfinished {before after : Session ν} {code : String} {error : ScriptError}
      {written reported : List ConsoleEvent} (joined : code = "\n".intercalate lines)
      (outcome : before.outcome code = .error (.unfinished error))
      (console : after.world.console = (before.evaluated code).world.console)
      (same : after.buffer = lines) :
      Handles lines before (.evaluated code (.error (.unfinished error)) written reported) after

theorem Handles.buffer_eq {lines : List String} {before after : Session ν} {deed : Deed}
    (handles : Handles lines before deed after) :
    after.buffer = if deed.ends then [] else lines ++ deed.taken := by
  cases handles with
  | took _ _ buffered => exact buffered
  | dropped _ _ emptied => exact emptied
  | passed _ _ same => simpa [Deed.ends, Deed.taken] using same
  | gave _ _ _ emptied => exact emptied
  | failed _ _ _ emptied => exact emptied
  | wrote same | launched same | unreadable same => simpa [Deed.ends, Deed.taken] using same
  | unfinished _ _ _ same => simpa [Deed.ends, Deed.taken] using same

/-! ## Every deed handles the buffered lines -/

theorem Quiet.buffer_eq {before after : Session ν} {written : List ConsoleEvent}
    (quiet : Quiet before written after) : after.buffer = before.buffer := by
  obtain ⟨closed, closed'⟩ | ⟨server, next, isOpen, isOpen', kept⟩ := quiet.closed_or_open
  · rw [buffer_of_closed closed, buffer_of_closed closed']
  · rw [buffer_of_open isOpen, buffer_of_open isOpen', kept.buffer]

theorem handles_read {before : Session ν} {server next : Server (SessionAction ν)}
    {event : InputEvent} {editor : Editor} {console : Console}
    {shown printed : List ConsoleEvent} {echoed : Bool}
    (isOpen : before.world.server = some server)
    (named : Directive.DropsByName server.directives)
    (reacts : { server with editor := editor }.Reacts event next printed) :
    Handles before.buffer before (.read shown event echoed (server.effect event) printed)
      (before.withServer next console) := by
  rw [buffer_of_open isOpen]
  have buffered : (before.withServer next console).buffer =
      (server.effect event).apply server.buffer := reacts.buffer
  cases effect : server.effect event with
  | takes line =>
      rw [effect] at buffered
      obtain ⟨rfl, isCode⟩ := server.eq_of_effect_takes effect
      exact .took isOpen isCode buffered rfl
  | keeps =>
      rw [effect] at buffered
      refine .passed isOpen (fun line same => ?_) buffered rfl
      exact server.not_isCode_of_effect_keeps (same ▸ effect)
  | drops =>
      rw [effect] at buffered
      exact .dropped isOpen (server.dropsAt_of_effect_drops named effect) buffered rfl

theorem handles_evaluated {before : Session ν} {server : Server (SessionAction ν)}
    {code : String} {written reported : List ConsoleEvent}
    (isOpen : before.world.server = some server)
    (joined : code = "\n".intercalate server.buffer)
    (writes : (before.noting code).world.Writes written (before.evaluated code).world) :
    Handles before.buffer before (.evaluated code (before.outcome code) written reported)
      (before.handleStatement code) := by
  obtain ⟨next, isOpen', left⟩ := exists_server_evaluated isOpen writes
  rw [buffer_of_open isOpen, handleStatement_eq]
  match outcome : before.outcome code with
  | .ok value =>
      exact .gave joined outcome (console_conclude isOpen' _)
        (buffer_of_open (server_conclude isOpen' _))
  | .error (.failed error) =>
      exact .failed joined outcome (console_conclude isOpen' _)
        (buffer_of_open (server_conclude isOpen' _))
  | .error (.unfinished error) =>
      exact .unfinished joined outcome rfl ((buffer_of_open isOpen').trans left.buffer)

theorem handles_of_does {before after : Session ν} {deed : Deed}
    (does : Does before deed after) : Handles before.buffer before deed after := by
  cases does with
  | wrote quiet => exact .wrote quiet.buffer_eq
  | launched closed _ _ => exact .launched (by rw [buffer_of_closed closed]; rfl)
  | read isOpen named _ _ _ reacts => exact handles_read isOpen named reacts
  | unreadable isOpen _ => exact .unreadable (by rw [buffer_of_open isOpen]; rfl) rfl
  | evaluated isOpen joined writes => exact handles_evaluated isOpen joined writes

theorem Course.buffer_eq {start finish : Session ν} {log : List Deed}
    (course : Course start log finish) (empty : start.buffer = []) :
    finish.buffer = pending log := by
  induction course with
  | refl => exact empty
  | step _ does ih => rw [(handles_of_does does).buffer_eq, ih, pending]

end Session

end ScriptConsole

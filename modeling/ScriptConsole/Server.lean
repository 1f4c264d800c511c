import ScriptConsole.Directive
import ScriptConsole.Editor
import ScriptConsole.Palette
import ScriptConsole.Value.Inspect

/-!
# The read loop

The server reads lines until there is something for the session to do: a
statement to evaluate, a directive to follow, or an end.  The lines of a
statement are buffered until the session takes them as finished, and every
further line gives all of them once more.
-/

namespace ScriptConsole

inductive ServerInput (α : Type) where
  /-- The buffered lines. -/
  | statement (code : String)
  /-- A directive of the embedding and the text after its keyword. -/
  | directive (action : α) (arguments : String)
  | leave

structure Server (α : Type) where
  prompt : String
  /-- The prompt inside an unfinished statement. -/
  continuationPrompt : String
  editor : Editor
  /-- The lines of the statement, first line first. -/
  buffer : List String
  directives : Dictionary (Directive α)
  /-- Where the history is saved. -/
  historyPath : Option String
  /-- The latest event was an interrupt at an empty buffer. -/
  interrupted : Bool

namespace Server

variable {α : Type}

/-- What an interrupt at an empty buffer prints. -/
def leaveHint : String :=
  "(To exit, press Ctrl+C again or Ctrl+D or type .exit)"

/-- What a directive that is not defined prints. -/
def unknownDirective : String :=
  "Invalid REPL keyword"

def ofEditor (prompt continuationPrompt : String) (editor : Editor) : Server α :=
  ⟨prompt, continuationPrompt, editor, [], Directive.standard, none, false⟩

def currentPrompt (server : Server α) : String :=
  if server.buffer.isEmpty then server.prompt else server.continuationPrompt

def displayPrompt (server : Server α) (console : Console) : Server α × Console :=
  let (editor, console) := server.editor.displayPrompt server.currentPrompt console
  ({ server with editor := editor }, console)

def clearBuffer (server : Server α) : Server α :=
  { server with buffer := [] }

def remember (server : Server α) (line : String) : Server α :=
  { server with editor := server.editor.remember line }

def define (server : Server α) (name help : String) (action : α) : Server α :=
  { server with directives := Directive.define name ⟨help, .custom action⟩ server.directives }

def setCompletions (server : Server α) (names : List String) : Server α :=
  { server with editor := server.editor.setCompletions names }

def remaining (server : Server α) : Nat :=
  server.editor.remaining

/-- What becomes of an event: an input for the session, if there is one now. -/
structure Reaction (α : Type) where
  input? : Option (ServerInput α)
  server : Server α
  console : Console

def followDirective (server : Server α) (console : Console) (arguments : String) :
    DirectiveAction α → Reaction α
  | .dropBuffer => ⟨none, server.clearBuffer, console⟩
  | .leave => ⟨some .leave, server, console⟩
  | .showHelp => ⟨none, server, console.printLines (Directive.helpLines server.directives)⟩
  | .custom action => ⟨some (.directive action arguments), server.clearBuffer, console⟩

/-- Take a line as the next line of the statement. -/
def takeCode (server : Server α) (console : Console) (line : String) : Reaction α :=
  if server.buffer.isEmpty && Text.isAllBlank line.toList then ⟨none, server, console⟩
  else
    let buffer := server.buffer ++ [line]
    ⟨some (.statement ("\n".intercalate buffer)),
      { server.remember line with buffer := buffer }, console⟩

/-- React to a line that has the form of a directive. -/
def takeDirective (server : Server α) (console : Console) (line keyword arguments : String) :
    Reaction α :=
  match Dictionary.find? keyword server.directives with
  | some directive =>
      (server.remember (String.ofList (Text.trim line.toList))).followDirective console
        arguments directive.action
  | none =>
      if server.buffer.isEmpty then ⟨none, server, console.printLine unknownDirective⟩
      else server.takeCode console line

def takeLine (server : Server α) (console : Console) (line : String) : Reaction α :=
  match Directive.ofLine? (Text.trim line.toList) with
  | none => server.takeCode console line
  | some (keyword, arguments) => server.takeDirective console line keyword arguments

def takeInterrupt (server : Server α) (console : Console) : Reaction α :=
  if !server.buffer.isEmpty then
    ⟨none, { server with buffer := [], interrupted := false }, console⟩
  else if server.interrupted then ⟨some .leave, server, console⟩
  else ⟨none, { server with interrupted := true }, console.printLine leaveHint⟩

def react (server : Server α) (console : Console) : InputEvent → Reaction α
  | .line line => { server with interrupted := false }.takeLine console line
  | .interrupt => server.takeInterrupt console
  | .endOfInput => ⟨some .leave, server, console⟩

@[simp] theorem remaining_remember (server : Server α) (line : String) :
    (server.remember line).remaining = server.remaining := rfl

theorem remaining_followDirective (server : Server α) (console : Console)
    (arguments : String) (action : DirectiveAction α) :
    (server.followDirective console arguments action).server.remaining =
      server.remaining := by
  cases action <;> rfl

theorem remaining_takeCode (server : Server α) (console : Console) (line : String) :
    (server.takeCode console line).server.remaining = server.remaining := by
  unfold takeCode
  split <;> rfl

theorem remaining_takeDirective (server : Server α) (console : Console)
    (line keyword arguments : String) :
    (server.takeDirective console line keyword arguments).server.remaining =
      server.remaining := by
  unfold takeDirective
  split
  · rw [remaining_followDirective, remaining_remember]
  · split
    · rfl
    · rw [remaining_takeCode]

theorem remaining_takeLine (server : Server α) (console : Console) (line : String) :
    (server.takeLine console line).server.remaining = server.remaining := by
  unfold takeLine
  split
  · rw [remaining_takeCode]
  · rw [remaining_takeDirective]

theorem remaining_react (server : Server α) (console : Console) (event : InputEvent) :
    (server.react console event).server.remaining = server.remaining := by
  cases event with
  | line line => exact remaining_takeLine ..
  | interrupt =>
      change (server.takeInterrupt console).server.remaining = _
      unfold takeInterrupt
      split
      · rfl
      · split <;> rfl
  | endOfInput => rfl

/-- Read events until there is an input for the session; nothing if the input is
no text. -/
def readInput (server : Server α) (console : Console) :
    Option (ServerInput α) × Server α × Console :=
  match _hr : server.editor.read server.currentPrompt console with
  | (none, editor, shown) => (none, { server with editor := editor }, shown)
  | (some event, editor, shown) =>
      match _hs : { server with editor := editor }.react shown event with
      | ⟨some input, after, printed⟩ => (some input, after, printed)
      | ⟨none, after, printed⟩ => after.readInput printed
termination_by server.remaining
decreasing_by
  have hk := remaining_react { server with editor := editor } shown event
  rw [_hs] at hk
  have he : event ≠ .endOfInput := by
    rintro rfl
    simp [react] at _hs
  have hlt := Editor.remaining_read_lt _hr he
  simp only [remaining] at hk ⊢
  omega

/-- The greatest depth of a result that is shown. -/
def resultDepth : Nat := 2

def resultLine (palette : Palette) (promises : Promises) (value : Value) : String :=
  value.inspect ⟨palette, some resultDepth⟩ promises

def errorLine (palette : Palette) (error : ScriptError) : String :=
  palette.paint .red ("Uncaught " ++ error.display)

/-- Keep the history in a file, which has to be writable, and load what it holds. -/
def setupHistory (server : Server α) (disk : Disk) (path : String) :
    Except HistoryFailure (Server α) × Disk :=
  match disk.touch path with
  | .error fault => (.error (.notOpened path fault.message), disk)
  | .ok disk =>
      match server.editor.history.load disk path with
      | .error failure => (.error failure, disk)
      | .ok history =>
          (.ok { server with
              editor := { server.editor with history := history }
              historyPath := some path }, disk)

/-- Save the history if it is kept in a file. -/
def close (server : Server α) (disk : Disk) : Except HistoryFailure Disk :=
  match server.historyPath with
  | none => .ok disk
  | some path => server.editor.history.save disk path

end Server

end ScriptConsole

/-!
# The console

What a session writes and when it reads is kept as a transcript of events, the
latest first.  The texts of standard output and of standard error are views of
the transcript; some events leave no text.
-/

namespace ScriptConsole

/-- What a read of input gives. -/
inductive InputEvent where
  | line (text : String)
  /-- The interrupt key. -/
  | interrupt
  | endOfInput
  deriving DecidableEq, Repr, Inhabited

namespace InputEvent

def echo : InputEvent → String
  | line text => text
  | interrupt => "^C"
  | endOfInput => ""

end InputEvent

inductive ConsoleEvent where
  /-- A line of output. -/
  | line (text : String)
  /-- A prompt; no line break follows. -/
  | prompt (text : String)
  /-- A line on standard error. -/
  | message (text : String)
  /-- Input is read, and shown if it is echoed. -/
  | read (event : InputEvent) (echoed : Bool)
  /-- Buffered lines are evaluated as a statement. -/
  | evaluated (code : String)
  deriving DecidableEq, Repr

namespace ConsoleEvent

def output : ConsoleEvent → String
  | line text => text ++ "\n"
  | prompt text => text
  | read event true => event.echo ++ "\n"
  | message _ | read _ false | evaluated _ => ""

def messages : ConsoleEvent → String
  | message text => text ++ "\n"
  | line _ | prompt _ | read _ _ | evaluated _ => ""

def isPrompt : ConsoleEvent → Bool
  | prompt _ => true
  | _ => false

/-- Whether an event is a line on one of the two outputs. -/
def isLine : ConsoleEvent → Bool
  | line _ | message _ => true
  | _ => false

theorem isPrompt_of_isLine {event : ConsoleEvent} (isLine : event.isLine = true) :
    event.isPrompt = false := by
  cases event <;> first | rfl | cases isLine

end ConsoleEvent

/-- The transcript of a session. -/
structure Console where
  /-- The events, latest first. -/
  events : List ConsoleEvent
  deriving DecidableEq, Repr, Inhabited

namespace Console

def empty : Console :=
  ⟨[]⟩

def record (console : Console) (event : ConsoleEvent) : Console :=
  ⟨event :: console.events⟩

def printLine (console : Console) (text : String) : Console :=
  console.record (.line text)

def printPrompt (console : Console) (text : String) : Console :=
  console.record (.prompt text)

def printMessage (console : Console) (text : String) : Console :=
  console.record (.message text)

def printLines (console : Console) (lines : List String) : Console :=
  lines.foldl printLine console

def output (console : Console) : String :=
  String.join (console.events.reverse.map ConsoleEvent.output)

def messages (console : Console) : String :=
  String.join (console.events.reverse.map ConsoleEvent.messages)

/-- The events that were recorded after an earlier console. -/
def since (console earlier : Console) : Console :=
  ⟨console.events.take (console.events.length - earlier.events.length)⟩

end Console

end ScriptConsole

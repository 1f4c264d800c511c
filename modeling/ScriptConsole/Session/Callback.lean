import ScriptConsole.Evaluation

/-!
# Callbacks

What an embedding does with a session, when the session has started or when a
directive is given.  A callback is a tree like a program; it may look at the
session, and it may take notes of the embedding's own type `ν`.
-/

namespace ScriptConsole

inductive SessionPhase where
  | notStarted
  | running
  | terminated
  deriving DecidableEq, Repr, Inhabited

inductive SessionFailure where
  | alreadyStarted
  | notStarted
  | history (failure : HistoryFailure)
  /-- A directive gave up. -/
  | directive (cause : String)
  /-- Input could not be read. -/
  | input (cause : String)
  deriving DecidableEq, Repr

namespace SessionFailure

def message : SessionFailure → String
  | alreadyStarted => "REPL session already started"
  | notStarted => "REPL session not started"
  | history failure => failure.message
  | directive cause => "readline error: " ++ cause
  | input cause => "I/O error: " ++ cause

end SessionFailure

structure Snapshot where
  phase : SessionPhase
  workspace : Workspace
  promises : Promises
  editor : Editor
  /-- The buffered lines, once lines are read. -/
  buffer : Option (List String)
  /-- The prompt, once lines are read. -/
  prompt : Option String
  /-- The path that the session was given for its history. -/
  historyPath : Option String
  disk : Disk

inductive ReadReply where
  | statement (code : String)
  | directive (arguments : String)
  | leave
  | notText
  | noServer
  deriving DecidableEq, Repr

inductive Callback (ν : Type) where
  /-- End, and fail if there is a cause. -/
  | done (cause : Option String)
  | note (entry : ν) (next : Callback ν)
  | look (next : Snapshot → Callback ν)
  | start (next : Except SessionFailure Unit → Callback ν)
  | run (next : Except SessionFailure Unit → Callback ν)
  | close (next : Except SessionFailure Unit → Callback ν)
  /-- Evaluate a statement under the next label, or under a given one. -/
  | evaluate (label : Option String) (code : String)
      (next : Except EvalError Value → Callback ν)
  | addHelper (helper : Helper) (next : Callback ν)
  | useCompiler (compiler : Compiler) (next : Callback ν)
  | notify (text : String) (next : Callback ν)
  /-- List the helpers and the names. -/
  | list (next : Callback ν)
  | setName (name : String) (value : Value) (next : Callback ν)
  /-- Read from the server, without doing what is read. -/
  | read (next : ReadReply → Callback ν)
  /-- Run another callback when the session starts. -/
  | onReady (callback : Callback ν) (next : Callback ν)
  /-- Define a directive, if there is a server. -/
  | define (name help : String) (action : String → Callback ν) (next : Bool → Callback ν)

inductive SessionAction (ν : Type) where
  /-- List the helpers and the names. -/
  | list
  /-- Run a callback on the text after the keyword. -/
  | callback (action : String → Callback ν)

end ScriptConsole

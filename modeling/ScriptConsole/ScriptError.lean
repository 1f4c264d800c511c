/-!
# Script errors

What evaluated code throws: the name of an error's constructor and a message.
Some messages mean that a statement is not finished yet; such an error asks for
another line and is not reported.
-/

namespace ScriptConsole

structure ScriptError where
  name : String
  message : String
  deriving DecidableEq, Repr, Inhabited

namespace ScriptError

def malformed (message : String) : ScriptError :=
  ⟨"SyntaxError", message⟩

def wrongType (message : String) : ScriptError :=
  ⟨"TypeError", message⟩

def general (message : String) : ScriptError :=
  ⟨"Error", message⟩

def display (error : ScriptError) : String :=
  error.name ++ ": " ++ error.message

/-- How the messages open that ask for more input. -/
def unfinishedMessages : List String :=
  ["Unexpected end of input", "Unexpected token", "' expected"]

def asksForMore (message : String) : Bool :=
  unfinishedMessages.any fun opening => opening.toList.isPrefixOf message.toList

end ScriptError

inductive HelperFailure where
  /-- An argument is not of the right type. -/
  | badArgument (message : String)
  | failed (message : String)
  /-- An error of the code that the helper ran. -/
  | thrown (error : ScriptError)
  deriving DecidableEq, Repr

namespace HelperFailure

def toScriptError : HelperFailure → ScriptError
  | badArgument message => .wrongType message
  | failed message => .general message
  | thrown error => error

end HelperFailure

inductive EvalError where
  /-- The statement is not finished. -/
  | unfinished (error : ScriptError)
  /-- The statement failed. -/
  | failed (error : ScriptError)
  deriving DecidableEq, Repr

namespace EvalError

/-- Tell an unfinished statement from a failed one by the message. -/
def classify (error : ScriptError) : EvalError :=
  if ScriptError.asksForMore error.message then unfinished error else failed error

def error : EvalError → ScriptError
  | unfinished error | failed error => error

def isUnfinished : EvalError → Bool
  | unfinished _ => true
  | failed _ => false

end EvalError

inductive CompileError where
  /-- The compiler rejected the statement. -/
  | rejected (message : String)
  /-- The compiler could not be run. -/
  | notRun (program : String) (cause : String)
  /-- Talking to the compiler failed. -/
  | broken (cause : String)
  deriving DecidableEq, Repr

namespace CompileError

def message : CompileError → String
  | rejected message => message
  | notRun program cause => "failed to run compiler \x60" ++ program ++ "\x60: " ++ cause
  | broken cause => "compiler I/O error: " ++ cause

/-- The error that a session reports for a failed compilation. -/
def toScriptError (error : CompileError) : ScriptError :=
  match error with
  | rejected message => .malformed message
  | other => .general other.message

end CompileError

end ScriptConsole

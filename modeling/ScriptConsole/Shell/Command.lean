import ScriptConsole.Compiler
import ScriptConsole.Shell.Script
import ScriptConsole.Shell.Words

/-!
# Compiler commands

A compiler may be a command that reads a statement from its input and writes
compiled code to its output.  Its arguments may name the file of the statement.
A failure is reported by the messages of the command or, if it has none, by its
exit status.
-/

namespace ScriptConsole

structure CompilerCommand where
  program : String
  arguments : List String
  deriving DecidableEq, Repr

namespace CompilerCommand

def ofLine (line : String) : Except CompileError CompilerCommand :=
  match Shell.words? line.toList with
  | none => .error (.rejected "invalid compiler command: missing closing quote")
  | some [] => .error (.rejected "empty compiler command")
  | some (program :: arguments) =>
      .ok ⟨String.ofList program, arguments.map String.ofList⟩

/-- What stands for the name of the file in an argument. -/
def filenameMark : List Char :=
  "\x7bfilename\x7d".toList

def withFilename (filename text : String) : String :=
  String.ofList (Text.replaceAll filenameMark filename.toList text.toList)

def failureMessage (program : String) (outcome : Shell.Outcome) : String :=
  let messages := String.ofList (Text.trim (Text.decodeLossy outcome.messages).toList)
  if messages.isEmpty then
    "\x60" ++ program ++ "\x60 exited with exit status: " ++ toString outcome.status
  else messages

def compile (command : CompilerCommand) (code filename : String) :
    Except CompileError String :=
  match Shell.run? command.program (command.arguments.map (withFilename filename))
      (Text.encode code) with
  | none => .error (.notRun command.program "No such file or directory (os error 2)")
  | some outcome =>
      if outcome.status = 0 then .ok (Text.decodeLossy outcome.output)
      else .error (.rejected (failureMessage command.program outcome))

def toCompiler (command : CompilerCommand) (typescript : Bool) : Compiler :=
  ⟨typescript, command.compile⟩

end CompilerCommand

end ScriptConsole

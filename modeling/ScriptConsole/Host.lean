import ScriptConsole.Compiler
import ScriptConsole.Completeness
import ScriptConsole.Program

/-!
# Hosts

A host executes compiled code.  The preview host executes nothing: it tells
whether code is complete.
-/

namespace ScriptConsole

/-- What executes compiled code: for a unit and the name of its file, a program. -/
abbrev Host : Type :=
  CompiledUnit → (filename : String) → Program

namespace Host

/-- Code that is complete has its own text as its value. -/
def preview : Host :=
  fun unit _ =>
    match Completeness.check unit.code.toList with
    | some fault => .throw fault.toScriptError
    | none =>
        let value : Value := .string unit.code
        if unit.suspends then
          .makePromise (.fulfilled value) fun identity => .give (.promise identity)
        else .give value

end Host

end ScriptConsole

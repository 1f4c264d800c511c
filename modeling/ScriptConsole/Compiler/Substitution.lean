import ScriptConsole.Shell.Command

/-!
# Compilers by substitution

A compiler may be a list of replacements, with text put before and after the
code.  Words in the code may make it fail.
-/

namespace ScriptConsole

/-- How a word in the code makes a compiler fail. -/
structure CompilerComplaint where
  word : String
  failure : CompileError

namespace CompileError

/-- Put the name of a file into what a failure says. -/
def withFilename (filename : String) : CompileError → CompileError
  | rejected message => rejected (CompilerCommand.withFilename filename message)
  | notRun program cause => notRun program (CompilerCommand.withFilename filename cause)
  | broken cause => broken (CompilerCommand.withFilename filename cause)

end CompileError

structure CompilerSubstitution where
  /-- Texts and what is put in their place, in turn. -/
  replacements : List (String × String)
  before : String
  after : String
  complaints : List CompilerComplaint

namespace CompilerSubstitution

def replace (substitution : CompilerSubstitution) (code : String) : String :=
  substitution.replacements.foldl
    (fun code (old, new) =>
      String.ofList (Text.replaceAll old.toList new.toList code.toList)) code

/-- Compile code; the first complaint about a word of it counts. -/
def compile (substitution : CompilerSubstitution) (code filename : String) :
    Except CompileError String :=
  match substitution.complaints.find? fun complaint =>
      Text.containsWord complaint.word.toList code.toList with
  | some complaint => .error (complaint.failure.withFilename filename)
  | none =>
      .ok (CompilerCommand.withFilename filename substitution.before ++
        substitution.replace code ++
        CompilerCommand.withFilename filename substitution.after)

end CompilerSubstitution

end ScriptConsole

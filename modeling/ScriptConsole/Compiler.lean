import ScriptConsole.AsyncWrap
import ScriptConsole.Import.Rewrite
import ScriptConsole.ScriptError
import ScriptConsole.SourceMap

/-!
# Compiling statements

A statement may first pass through a compiler that strips types.  Short ones
have their imports rewritten before, and the comment that names a source map is
patched after.  A statement that suspends is wrapped in any case.
-/

namespace ScriptConsole

structure Compiler where
  /-- Whether code may hold type annotations. -/
  typescript : Bool
  /-- Compile code as if it were the contents of a file of the given name. -/
  compile : (code filename : String) → Except CompileError String

/-- Code that is ready to be evaluated. -/
structure CompiledUnit where
  code : String
  /-- The code evaluates to a promise that has to settle first. -/
  suspends : Bool
  deriving DecidableEq, Repr, Inhabited

structure CompileRequest where
  code : String
  filename : String
  deriving DecidableEq, Repr

namespace Compiler

/-- Statements of more lines keep their imports as they are. -/
def maxImportLines : Nat := 2

def extension (compiler : Compiler) : String :=
  if compiler.typescript then "ts" else "js"

/-- What a compiler is asked for a statement; `label` names the evaluation. -/
def request (compiler : Compiler) (statement label : String) : CompileRequest :=
  let lines := (Text.cutAtChar '\n' statement.toList).length
  ⟨if lines ≤ maxImportLines then String.ofList (Import.rewrite statement.toList)
    else statement,
    label ++ "." ++ compiler.extension⟩

def strip (compiler : Compiler) (statement label : String) :
    Except CompileError String :=
  let request := compiler.request statement label
  match compiler.compile request.code request.filename with
  | .ok code => .ok (String.ofList (SourceMap.patch code.toList))
  | .error error => .error error

end Compiler

namespace CompiledUnit

def ofCode (code : String) : CompiledUnit :=
  match AsyncWrap.wrap? code.toList with
  | some wrapped => ⟨String.ofList wrapped, true⟩
  | none => ⟨code, false⟩

/-- Compile a statement, with a compiler if there is one. -/
def ofStatement (compiler : Option Compiler) (statement label : String) :
    Except CompileError CompiledUnit :=
  match compiler with
  | none => .ok (ofCode statement)
  | some compiler =>
      match compiler.strip statement label with
      | .ok code => .ok (ofCode code)
      | .error error => .error error

@[simp] theorem ofStatement_none (statement label : String) :
    ofStatement none statement label = .ok (ofCode statement) := rfl

end CompiledUnit

end ScriptConsole

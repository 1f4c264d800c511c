import ScriptConsole.Text.Blank

/-!
# Log levels
-/

namespace ScriptConsole

inductive LogLevel where
  | debug
  | info
  | warn
  | error
  deriving DecidableEq, Repr

namespace LogLevel

/-- A word as it is looked up: without blanks around it, in small letters. -/
def normalized (word : String) : String :=
  String.ofList ((Text.trim word.toList).map Char.toLower)

def ofWord? (word : String) : Option LogLevel :=
  match normalized word with
  | "debug" | "trace" => some debug
  | "info" => some info
  | "warn" | "warning" => some warn
  | "error" => some error
  | _ => none

/-- What is said of a word that stands for no level. -/
def unknownMessage (word : String) : String :=
  "unknown log level \x60" ++ normalized word ++ "\x60"

end LogLevel

end ScriptConsole

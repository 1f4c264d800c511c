import ScriptConsole.Path
import ScriptConsole.Toml.Document
import ScriptConsole.Toml.Quoted

/-!
# Settings

The settings of a user are kept in a document of two sections.  A section is a
table, or an array of its values in order; what is missing has its default.
-/

namespace ScriptConsole

structure Config where
  historyPath : Option String
  /-- The greatest number of lines in the history. -/
  historySize : Nat
  /-- Whether output is painted. -/
  colors : Bool
  /-- The command line of a compiler. -/
  compilerLine : Option String
  /-- Whether the compiler accepts type annotations. -/
  typescript : Bool
  deriving DecidableEq, Repr

inductive ConfigFailure where
  | unreadable (cause : String)
  | malformed
  deriving DecidableEq, Repr

namespace Config

def standard : Config :=
  ⟨none, 1000, true, none, true⟩

/-! ## Reading -/

def text? : Toml → Option String
  | .string text => some text
  | _ => none

def natural? : Toml → Option Nat
  | .integer (.ofNat n) => some n
  | _ => none

def boolean? : Toml → Option Bool
  | .boolean value => some value
  | _ => none

/-- The values of a section under the names of its settings. -/
def entries? (names : List String) : Toml → Option Toml.Entries
  | .table _ entries => some entries
  | .array items => some (names.zip items)
  | .tables items => some (names.zip (items.map (.table .header)))
  | .dateTime => some []
  | _ => none

/-- The section under a name; a missing one has no values. -/
def section? (root : Toml.Entries) (name : String) (names : List String) :
    Option Toml.Entries :=
  match Dictionary.find? name root with
  | some value => entries? names value
  | none => some []

/-- The setting under a name, or its default; it has to be of its kind. -/
def setting? {α : Type} (kind? : Toml → Option α) (entries : Toml.Entries) (name : String)
    (standard : α) : Option α :=
  match Dictionary.find? name entries with
  | some value => kind? value
  | none => some standard

def ofEntries? (root : Toml.Entries) : Option Config := do
  let console ← section? root "repl" ["history_file", "history_size", "colors"]
  let compiler ← section? root "compiler" ["command", "typescript"]
  return {
    historyPath := ← setting? (some <$> text? ·) console "history_file" standard.historyPath
    historySize := ← setting? natural? console "history_size" standard.historySize
    colors := ← setting? boolean? console "colors" standard.colors
    compilerLine := ← setting? (some <$> text? ·) compiler "command" standard.compilerLine
    typescript := ← setting? boolean? compiler "typescript" standard.typescript }

/-- The settings that a text holds, for a user with the given home directory. -/
def parse (home : Option String) (text : String) : Except ConfigFailure Config :=
  match Toml.parse? text >>= ofEntries? with
  | some config =>
      .ok { config with historyPath := config.historyPath.map (Path.expandHome home) }
  | none => .error .malformed

/-! ## Writing -/

def line (name value : String) : String :=
  name ++ " = " ++ value ++ "\n"

/-- The line of a setting that may be missing. -/
def textLine (name : String) : Option String → String
  | some text => line name (Toml.written text)
  | none => ""

def render (config : Config) : String :=
  "[repl]\n" ++ textLine "history_file" config.historyPath ++
    line "history_size" (toString config.historySize) ++
    line "colors" (toString config.colors) ++
    "\n[compiler]\n" ++ textLine "command" config.compilerLine ++
    line "typescript" (toString config.typescript)

end Config

end ScriptConsole

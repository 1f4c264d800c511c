/-!
# The command line

Arguments are read in order.  Each option is given at most once, and nothing but
options may be given.  The first request for help or for the version is answered
at once, whatever follows it.
-/

namespace ScriptConsole

inductive CommandSwitch where
  | noHistory
  | js
  | noColor
  | verbose
  | printConfig
  deriving DecidableEq, Repr

inductive CommandOption where
  | history
  | compiler
  deriving DecidableEq, Repr

inductive CommandLine where
  /-- Run with the options that are given. -/
  | run (switches : List CommandSwitch) (values : List (CommandOption × String))
  | help
  | version
  /-- The arguments cannot be understood. -/
  | misuse
  deriving DecidableEq, Repr

namespace CommandLine

/-- The parts of a command line that an argument may stand for. -/
inductive Part where
  | switch (switch : CommandSwitch)
  | help
  | version
  /-- An option with its value. -/
  | value (option : CommandOption) (text : String)
  | unknown
  deriving DecidableEq, Repr

def longSwitch : String → Part
  | "no-history" => .switch .noHistory
  | "js" => .switch .js
  | "no-color" => .switch .noColor
  | "verbose" => .switch .verbose
  | "print-config" => .switch .printConfig
  | "help" => .help
  | "version" => .version
  | _ => .unknown

def letterSwitch : Char → Part
  | 'v' => .switch .verbose
  | 'h' => .help
  | 'V' => .version
  | _ => .unknown

def longOption? : String → Option CommandOption
  | "history" => some .history
  | "compiler" => some .compiler
  | _ => none

/-- An option with a value; the name of a file is not empty. -/
def valued (option : CommandOption) (text : String) : Part :=
  if option = .history ∧ text = "" then .unknown else .value option text

/-- The argument after an option, as its value; it must not look like an option. -/
def separateValue (option : CommandOption) (text : String) : Part :=
  if text.toList.head? = some '-' ∧ text ≠ "-" then .unknown else valued option text

/-- The parts of an argument that starts with two dashes; `name` follows them. -/
def longParts (name : List Char) : List Part :=
  if '=' ∈ name then
    match longOption? (String.ofList (name.takeWhile (· ≠ '='))) with
    | some option => [valued option (String.ofList ((name.dropWhile (· ≠ '=')).drop 1))]
    | none => [.unknown]
  else [longSwitch (String.ofList name)]

/-- The option that has its value in the argument after it. -/
def awaiting? : List Char → Option CommandOption
  | '-' :: '-' :: name => longOption? (String.ofList name)
  | _ => none

def parts : List Char → List Part
  | '-' :: '-' :: name => longParts name
  | '-' :: letter :: letters => (letter :: letters).map letterSwitch
  | _ => [.unknown]

/-- The parts of all arguments.  Two dashes end the options, and nothing may follow. -/
def allParts : List String → List Part
  | [] => []
  | argument :: rest =>
      if argument = "--" then if rest.isEmpty then [] else [.unknown]
      else
        match awaiting? argument.toList, rest with
        | some option, text :: rest => separateValue option text :: allParts rest
        | some _, [] => [.unknown]
        | none, rest => parts argument.toList ++ allParts rest

def consistent (switches : List CommandSwitch) (values : List (CommandOption × String)) :
    Bool :=
  let isGiven (option : CommandOption) : Bool := values.any (·.1 = option)
  !(isGiven .history && .noHistory ∈ switches) && (isGiven .compiler || .js ∉ switches)

/-- Follow parts, after the options that were given before. -/
def ofParts (switches : List CommandSwitch) (values : List (CommandOption × String)) :
    List Part → CommandLine
  | [] => if consistent switches values then .run switches values else .misuse
  | .help :: _ => .help
  | .version :: _ => .version
  | .unknown :: _ => .misuse
  | .switch switch :: rest =>
      if switch ∈ switches then .misuse else ofParts (switches ++ [switch]) values rest
  | .value option text :: rest =>
      if values.any (·.1 = option) then .misuse
      else ofParts switches (values ++ [(option, text)]) rest

def ofArguments (arguments : List String) : CommandLine :=
  ofParts [] [] (allParts arguments)

def programName : String :=
  "tsrepl"

def versionText : String :=
  programName ++ " 0.1.0\n"

def helpText : String :=
  String.join ([
    programName,
    "",
    "Usage: " ++ programName ++ " [OPTIONS]",
    "",
    "Options:",
    "      --history <FILE>   History file to load and save",
    "      --no-history       Do not keep a history file",
    "      --compiler <CMD>   Type-stripping command reading source on stdin, e.g. " ++
      "\"esbuild --loader=ts\"",
    "      --js               The compiler only accepts JavaScript",
    "      --no-color         Disable colored output",
    "  -v, --verbose          Enable verbose output",
    "      --print-config     Print the effective configuration and exit",
    "  -h, --help             Print help",
    "  -V, --version          Print version"].map (· ++ "\n"))

end CommandLine

end ScriptConsole

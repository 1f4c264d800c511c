import ScriptConsole.CommandLine
import ScriptConsole.Config.File
import ScriptConsole.Session
import ScriptConsole.Shell.Command

/-!
# Running the program

The program merges its arguments into the settings of the user, and runs a
session on what is piped in.  Settings that cannot be used count as none.
-/

namespace ScriptConsole

namespace Config

/-- The file for the history if nothing names another. -/
def standardHistory? (environment : Environment) : Option String :=
  environment.home?.map (Path.join · ".tsrepl_history")

def given? (values : List (CommandOption × String)) (option : CommandOption) :
    Option String :=
  (values.find? (·.1 = option)).map (·.2)

/-- The file for the history: the one that is given, else the one of the settings. -/
def chosenHistory? (config : Config) (environment : Environment)
    (values : List (CommandOption × String)) : Option String :=
  match given? values .history with
  | some path => some (Path.expandHome environment.home? path)
  | none => config.historyPath <|> standardHistory? environment

/-- The settings under the options that are given. -/
def withOptions (config : Config) (environment : Environment)
    (switches : List CommandSwitch) (values : List (CommandOption × String)) : Config where
  historyPath :=
    if .noHistory ∈ switches then none else config.chosenHistory? environment values
  historySize := config.historySize
  colors := config.colors && .noColor ∉ switches
  compilerLine := given? values .compiler <|> config.compilerLine
  typescript :=
    if (given? values .compiler).isSome then .js ∉ switches else config.typescript

/-- The compiler of the settings, if its command line can be understood. -/
def compiler (config : Config) : Except CompileError (Option Compiler) :=
  match config.compilerLine with
  | none => .ok none
  | some line =>
      match CompilerCommand.ofLine line with
      | .ok command => .ok (some (command.toCompiler config.typescript))
      | .error error => .error error

end Config

/-- What the program is run on. -/
structure Launch where
  arguments : List String
  environment : Environment
  input : List UInt8
  disk : Disk

/-- How a run of the program ends. -/
structure Completed where
  code : Nat
  output : String
  /-- What is printed on standard error. -/
  messages : String
  disk : Disk

namespace Launch

def answer (launch : Launch) (output : String) : Completed :=
  ⟨0, output, "", launch.disk⟩

def refuse (launch : Launch) (code : Nat) (reason : String) : Completed :=
  ⟨code, "", reason ++ "\n", launch.disk⟩

def session (launch : Launch) (config : Config) (compiler : Option Compiler) :
    Session Unit :=
  .ofOptions Host.preview
    { compiler := compiler
      historyPath := config.historyPath
      palette := ⟨config.colors⟩
      editor := .piped launch.input config.historySize
      disk := launch.disk
      natives := []
      promises := .empty }

def completed (session : Session Unit) (result : Except SessionFailure Unit) :
    Completed where
  code := match result with
    | .ok () => 0
    | .error _ => 1
  output := session.world.console.output
  messages := session.world.console.messages
  disk := session.disk

/-- Start a session and run it, unless its start fails. -/
def runSession (session : Session Unit) : Completed :=
  match session.start with
  | (.error failure, session) => completed session (.error failure)
  | (.ok (), session) =>
      let (result, session) := session.run
      completed session result

/-- The settings of the user under the options that are given. -/
def settings (launch : Launch) (switches : List CommandSwitch)
    (values : List (CommandOption × String)) : Config :=
  let loaded :=
    match Config.load launch.environment launch.disk with
    | .ok config => config
    | .error _ => .standard
  loaded.withOptions launch.environment switches values

/-- What is said of arguments that cannot be understood. -/
def misuseMessage : String :=
  "For more information, try '--help'."

def run (launch : Launch) : Completed :=
  match CommandLine.ofArguments launch.arguments with
  | .help => launch.answer CommandLine.helpText
  | .version => launch.answer CommandLine.versionText
  | .misuse => launch.refuse 2 misuseMessage
  | .run switches values =>
      let config := launch.settings switches values
      if .printConfig ∈ switches then launch.answer config.render
      else
        match config.compiler with
        | .error error => launch.refuse 1 error.message
        | .ok compiler => runSession (launch.session config compiler)

def readsInput (launch : Launch) : Bool :=
  match CommandLine.ofArguments launch.arguments with
  | .run switches _ => .printConfig ∉ switches
  | .help | .version | .misuse => false

/-- The file that a run keeps its history in. -/
def historyPath? (launch : Launch) : Option String :=
  match CommandLine.ofArguments launch.arguments with
  | .run switches values => (launch.settings switches values).historyPath
  | .help | .version | .misuse => none

end Launch

end ScriptConsole

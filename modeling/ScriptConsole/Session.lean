import ScriptConsole.Session.Callback

/-!
# Sessions

A session reads statements, evaluates them and prints what they give.  It starts
once, runs until its input ends, and is over then.  Callbacks may use the
session that runs them; every callback inside another one has a line of input
that gave rise to it, or the start of the session, so they end.
-/

namespace ScriptConsole

structure SessionOptions where
  compiler : Option Compiler
  historyPath : Option String
  palette : Palette
  editor : Editor
  disk : Disk
  /-- What the functions of the host do, by their identity. -/
  natives : List Behavior
  /-- The promises that there are before the start. -/
  promises : Promises
  limits : Limits := {}

structure Session (ν : Type) where
  host : Execution (SessionAction ν)
  compiler : Option Compiler
  world : World (SessionAction ν)
  /-- The editor that the start hands to the server. -/
  editor : Editor
  historyPath : Option String
  /-- What to run when the session has started. -/
  ready : List (Callback ν)
  phase : SessionPhase
  disk : Disk
  /-- The number of statements that were evaluated. -/
  evaluations : Nat
  /-- The notes that callbacks took, in order. -/
  notes : List ν

namespace Session

variable {ν : Type}

def ofOptions (host : Execution (SessionAction ν)) (options : SessionOptions) : Session ν where
  host := host
  compiler := options.compiler
  world :=
    { workspace := .empty
      console := .empty
      palette := options.palette
      server := none
      promises := options.promises
      tasks := []
      natives := options.natives
      limits := options.limits }
  editor := options.editor
  historyPath := options.historyPath
  ready := []
  phase := .notStarted
  disk := options.disk
  evaluations := 0
  notes := []

/-- The editor of the server, or the one that it will have. -/
def currentEditor (session : Session ν) : Editor :=
  match session.world.server with
  | some server => server.editor
  | none => session.editor

def remaining (session : Session ν) : Nat :=
  session.currentEditor.remaining

def snapshot (session : Session ν) : Snapshot where
  phase := session.phase
  workspace := session.world.workspace
  promises := session.world.promises
  editor := session.currentEditor
  buffer := session.world.server.map Server.buffer
  prompt := session.world.server.map Server.prompt
  historyPath := session.historyPath
  disk := session.disk

def printLine (session : Session ν) (text : String) : Session ν :=
  { session with world := session.world.printLine text }

def showPrompt (session : Session ν) : Session ν :=
  { session with world := session.world.showPrompt }

def notify (session : Session ν) (text : String) : Session ν :=
  { session with world := session.world.notify text }

def setName (session : Session ν) (name : String) (value : Value) : Session ν :=
  { session with world := session.world.setName name value }

def addHelper (session : Session ν) (helper : Helper) : Session ν :=
  { session with
    world := { session.world with workspace := session.world.workspace.addHelper helper } }

def useCompiler (session : Session ν) (compiler : Compiler) : Session ν :=
  { session with compiler := some compiler }

def onReady (session : Session ν) (callback : Callback ν) : Session ν :=
  { session with ready := session.ready ++ [callback] }

/-- Whether statements may hold type annotations. -/
def typescript (session : Session ν) : Bool :=
  session.compiler.any Compiler.typescript

/-- Put a server in the place of the present one. -/
def withServer (session : Session ν) (server : Server (SessionAction ν))
    (console : Console) : Session ν :=
  { session with world := { session.world with server := some server, console := console } }

/-- The lines that list the helpers and the names. -/
def listLines (session : Session ν) : List String :=
  let palette := session.world.palette
  let workspace := session.world.workspace
  ["", palette.paint .green "GLOBAL METHODS:"] ++ workspace.listing palette ++
    ["", palette.paint .green "CONTEXT PROPERTIES/METHODS:",
      workspace.propertyText session.typescript palette session.world.promises]

def list (session : Session ν) : Session ν :=
  (session.listLines.foldl printLine session).showPrompt

/-- The names that are offered to complete input. -/
def completionNames (session : Session ν) (server : Server (SessionAction ν)) :
    List String :=
  session.world.workspace.names.keys ++ server.directives.keys.map ("." ++ ·)

/-- Offer the names and the directives to complete input. -/
def publishCompletions (session : Session ν) : Session ν :=
  match session.world.server with
  | none => session
  | some server =>
      session.withServer (server.setCompletions (session.completionNames server))
        session.world.console

/-- Define a directive, and whether there is a server for it. -/
def define (session : Session ν) (name help : String) (action : SessionAction ν) :
    Bool × Session ν :=
  match session.world.server with
  | none => (false, session)
  | some server => (true, session.withServer (server.define name help action)
      session.world.console)

/-- The label of the evaluation of the given number. -/
def label (evaluation : Nat) : String :=
  "REPL" ++ toString evaluation

def evaluateAs (session : Session ν) (label code : String) :
    Except EvalError Value × Session ν :=
  let (result, world) := session.world.evaluate session.host session.compiler code label
  (result, { session with world := world })

/-- Evaluate a statement under the next label. -/
def evaluate (session : Session ν) (code : String) : Except EvalError Value × Session ν :=
  { session with evaluations := session.evaluations + 1 }.evaluateAs
    (label (session.evaluations + 1)) code

/-- Drop the buffered lines and print a line. -/
def conclude (session : Session ν) (text : String) : Session ν :=
  match session.world.server with
  | none => session
  | some server =>
      (session.withServer server.clearBuffer session.world.console).printLine text

/-- Report the result of a statement; one that is not finished stays buffered. -/
def report (session : Session ν) : Except EvalError Value → Session ν
  | .ok value =>
      session.conclude (Server.resultLine session.world.palette session.world.promises value)
  | .error (.unfinished _) => session
  | .error (.failed error) =>
      session.conclude (Server.errorLine session.world.palette error)

/-- Evaluate the buffered lines and report the result. -/
def handleStatement (session : Session ν) (code : String) : Session ν :=
  let world :=
    { session.world with console := session.world.console.record (.evaluated code) }
  let (result, session) := { session with world := world }.evaluate code
  session.report result

/-- Give background work a turn, then offer the present names. -/
def settleDown (session : Session ν) : Session ν :=
  { session with world := session.world.round }.publishCompletions

def close (session : Session ν) : Except SessionFailure Unit × Session ν :=
  let session := { session with phase := .terminated }
  match session.world.server with
  | none => (.ok (), session)
  | some server =>
      match server.close session.disk with
      | .error failure => (.error (.history failure), session)
      | .ok disk => (.ok (), { session with disk := disk })

/-- Read from the server, without doing what is read. -/
def read (session : Session ν) : ReadReply × Session ν :=
  match session.world.server with
  | none => (.noServer, session)
  | some server =>
      match server.readInput session.world.console with
      | (none, server, console) => (.notText, session.withServer server console)
      | (some (.statement code), server, console) =>
          (.statement code, session.withServer server console)
      | (some (.directive _ arguments), server, console) =>
          (.directive arguments, session.withServer server console)
      | (some .leave, server, console) => (.leave, session.withServer server console)

/-- How a callback is run: it may fail with a cause. -/
abbrev Performer (ν : Type) : Type :=
  Callback ν → Session ν → Option String × Session ν

/-! ## The start -/

def startNotice : String :=
  "Type \".ls\" to a view list of available context methods/properties"

def listHelp : String :=
  "View list of available context methods/properties"

/-- What a session says when its history file cannot be used. -/
def historyNotice : String :=
  "Unable to write to the history file. Exiting"

/-- The prompt tells the language of statements. -/
def promptText (session : Session ν) : String :=
  if session.typescript then "> (ts) " else "> (js) "

/-- The prompt inside an unfinished statement. -/
def continuationPrompt : String :=
  "... "

/-- Greet, and make a server and the helpers that every session has. -/
def launch (session : Session ν) : Session ν :=
  let session := (session.printLine "").notify startNotice
  let server := (Server.ofEditor session.promptText continuationPrompt session.editor).define
    "ls" listHelp (.list : SessionAction ν)
  { session with
    phase := .running
    world := { session.world with
      server := some server
      workspace := (session.world.workspace.addBuiltins session.world.palette).goLive } }

/-- Load the history, if the session has a file for it. -/
def setupHistory (session : Session ν) : Except HistoryFailure Unit × Session ν :=
  match session.historyPath, session.world.server with
  | some path, some server =>
      match server.setupHistory session.disk path with
      | (.ok server, disk) =>
          (.ok (), { session with disk := disk }.withServer server session.world.console)
      | (.error failure, disk) =>
          let world :=
            (session.world.printLine (session.world.palette.paint .red historyNotice)).printMessage
              failure.message
          (.error failure, { session with disk := disk, world := world })
  | _, _ => (.ok (), session)

def runReady (perform : Performer ν) (session : Session ν) : Session ν :=
  session.ready.foldl (fun session callback => (perform callback session).2)
    { session with ready := [] }

def startWith (perform : Performer ν) (session : Session ν) :
    Except SessionFailure Unit × Session ν :=
  match session.phase with
  | .notStarted =>
      match session.launch.setupHistory with
      | (.error failure, session) =>
          (.error (.history failure), { session with phase := .terminated })
      | (.ok (), session) =>
          (.ok (), (session.runReady perform).publishCompletions.showPrompt)
  | .running | .terminated => (.error .alreadyStarted, session)

/-! ## The loop -/

def follow (perform : Performer ν) (session : Session ν) (arguments : String) :
    SessionAction ν → Option String × Session ν
  | .list => (none, session.list)
  | .callback action => perform (action arguments) session

/-- What one turn of the loop leads to: the end of the loop, or another turn. -/
abbrev TurnResult (ν : Type) : Type :=
  Option (Except SessionFailure Unit) × Session ν

def obey (perform : Performer ν) (session : Session ν) :
    ServerInput (SessionAction ν) → TurnResult ν
  | .leave =>
      let (result, session) := session.close
      (some result, session)
  | .statement code => (none, (session.handleStatement code).settleDown)
  | .directive action arguments =>
      match session.follow perform arguments action with
      | (some cause, session) => (some (.error (.directive cause)), session)
      | (none, session) => (none, session.settleDown)

def turn (perform : Performer ν) (session : Session ν) : TurnResult ν :=
  match session.world.server with
  | none => (some (.error .notStarted), session)
  | some server =>
      match server.readInput session.world.console with
      | (none, server, console) =>
          (some (.error (.input notTextMessage)), session.withServer server console)
      | (some input, server, console) =>
          (session.withServer server console).obey perform input

def loop (perform : Performer ν) :
    (turns : Nat) → Session ν → Except SessionFailure Unit × Session ν
  | 0, session => (.ok (), session)
  | turns + 1, session =>
      match session.turn perform with
      | (some result, session) => (result, session)
      | (none, session) => loop perform turns session

/-- Run until the input ends.  Every turn but the last takes a line. -/
def runWith (perform : Performer ν) (session : Session ν) :
    Except SessionFailure Unit × Session ν :=
  match session.phase with
  | .notStarted => (.error .notStarted, session)
  | .terminated => (.ok (), session)
  | .running => loop perform (session.remaining + 1) session

/-! ## Callbacks -/

/-- Run a callback; `perform` runs the callbacks that it gives rise to. -/
def performWith (perform : Performer ν) : Performer ν
  | .done cause, session => (cause, session)
  | .note entry next, session =>
      performWith perform next { session with notes := session.notes ++ [entry] }
  | .look next, session => performWith perform (next session.snapshot) session
  | .start next, session =>
      let (result, session) := session.startWith perform
      performWith perform (next result) session
  | .run next, session =>
      let (result, session) := session.runWith perform
      performWith perform (next result) session
  | .close next, session =>
      let (result, session) := session.close
      performWith perform (next result) session
  | .evaluate none code next, session =>
      let (result, session) := session.evaluate code
      performWith perform (next result) session
  | .evaluate (some label) code next, session =>
      let (result, session) := session.evaluateAs label code
      performWith perform (next result) session
  | .addHelper helper next, session => performWith perform next (session.addHelper helper)
  | .useCompiler compiler next, session =>
      performWith perform next (session.useCompiler compiler)
  | .notify text next, session => performWith perform next (session.notify text)
  | .list next, session => performWith perform next session.list
  | .setName name value next, session =>
      performWith perform next (session.setName name value)
  | .read next, session =>
      let (reply, session) := session.read
      performWith perform (next reply) session
  | .onReady callback next, session => performWith perform next (session.onReady callback)
  | .define name help action next, session =>
      let (defined, session) := session.define name help (.callback action)
      performWith perform (next defined) session

/-- Run a callback, with callbacks inside one another up to a depth. -/
def performAt : (depth : Nat) → Performer ν
  | 0 => performWith fun _ session => (none, session)
  | depth + 1 => performWith (performAt depth)

/-- More callbacks than there can be inside one another: but for those that the
start runs, each has a line of input. -/
def callbackDepth (session : Session ν) : Nat :=
  session.remaining + 2

def perform (callback : Callback ν) (session : Session ν) : Option String × Session ν :=
  performAt session.callbackDepth callback session

def start (session : Session ν) : Except SessionFailure Unit × Session ν :=
  session.startWith (performAt session.callbackDepth)

def run (session : Session ν) : Except SessionFailure Unit × Session ν :=
  session.runWith (performAt session.callbackDepth)

end Session

end ScriptConsole

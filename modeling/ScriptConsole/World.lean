import ScriptConsole.Server
import ScriptConsole.Workspace

/-!
# Running programs

A world is all that programs act on.  Calls inside calls are run up to a depth.

Nothing answers a call that lies deeper, nor a wait that nothing ends: the one
exhausts the stack, the other never comes back.  The limits of a world say what is
taken for an answer then, and nothing is assumed of them.
-/

namespace ScriptConsole

/-- What is taken for an answer where there is none. -/
structure Limits where
  /-- The depth of calls inside calls that is run. -/
  callDepth : Nat := 1000
  /-- For the answer to a call that lies deeper. -/
  tooDeep : ScriptError := ⟨"RangeError", "Maximum call stack size exceeded"⟩
  /-- For the outcome of a wait that nothing ends. -/
  stalled : Except EvalError Value := .error (.failed (.general "Promise never settles"))

/-- Work in the background: lines that are printed, and then a promise that settles. -/
structure Task where
  /-- The rounds to wait before. -/
  rounds : Nat
  lines : List String
  promise : Nat
  settlement : Settlement

structure World (α : Type) where
  workspace : Workspace
  console : Console
  palette : Palette
  /-- The server, once lines are read. -/
  server : Option (Server α)
  promises : Promises
  tasks : List Task
  /-- What the functions of the host do, by their identity. -/
  natives : List Behavior
  limits : Limits := {}

namespace World

variable {α : Type}

def setName (world : World α) (name : String) (value : Value) : World α :=
  { world with workspace := world.workspace.setName name value }

def printLine (world : World α) (text : String) : World α :=
  { world with console := world.console.printLine text }

def printMessage (world : World α) (text : String) : World α :=
  { world with console := world.console.printMessage text }

def showPrompt (world : World α) : World α :=
  match world.server with
  | none => world
  | some server =>
      let (server, console) := server.displayPrompt world.console
      { world with server := some server, console := console }

def notify (world : World α) (text : String) : World α :=
  (world.printLine (world.palette.paint .notice text)).showPrompt

def makePromise (world : World α) (state : PromiseState) : Nat × World α :=
  let (identity, promises) := world.promises.make state
  (identity, { world with promises := promises })

def settle (world : World α) (promise : Nat) (settlement : Settlement) : World α :=
  { world with promises := (world.promises.settle promise settlement).2 }

/-- Make a promise that settles in the background. -/
def spawn (world : World α) (rounds : Nat) (lines : List String) (settlement : Settlement) :
    Nat × World α :=
  let (identity, world) := world.makePromise .pending
  (identity, { world with tasks := world.tasks ++ [⟨rounds, lines, identity, settlement⟩] })

abbrev Caller (α : Type) : Type :=
  Function → List Value → World α → Outcome × World α

def refuseCall : Caller α :=
  fun _ _ world => (.error world.limits.tooDeep, world)

/-- The error of a call to what is no function. -/
def notFunction (name : String) : ScriptError :=
  .wrongType (name ++ " is not a function")

/-- Call the function that a name stands for. -/
def callName (caller : Caller α) (name : String) (arguments : List Value)
    (world : World α) : Outcome × World α :=
  match Dictionary.find? name world.workspace.names with
  | some (.function function) => caller function arguments world
  | some _ => (.error (notFunction name), world)
  | none => (.error ⟨"ReferenceError", name ++ " is not defined"⟩, world)

def runWith (caller : Caller α) : Program → World α → Outcome × World α
  | .done outcome, world => (outcome, world)
  | .getName name next, world =>
      runWith caller (next (Dictionary.find? name world.workspace.names)) world
  | .setName name value next, world => runWith caller next (world.setName name value)
  | .removeName name next, world =>
      runWith caller (next (Dictionary.find? name world.workspace.names))
        { world with workspace := world.workspace.removeName name }
  | .names next, world => runWith caller (next world.workspace.names.keys) world
  | .helperNames next, world => runWith caller (next world.workspace.helpers.keys) world
  | .call function arguments next, world =>
      let (outcome, world) := caller function arguments world
      runWith caller (next outcome) world
  | .callName name arguments next, world =>
      let (outcome, world) := callName caller name arguments world
      runWith caller (next outcome) world
  | .printLine text next, world => runWith caller next (world.printLine text)
  | .printMessage text next, world => runWith caller next (world.printMessage text)
  | .notify text next, world => runWith caller next (world.notify text)
  | .showPrompt next, world => runWith caller next world.showPrompt
  | .palette next, world => runWith caller (next world.palette) world
  | .bufferedLines next, world =>
      runWith caller (next (world.server.map Server.buffer)) world
  | .makePromise state next, world =>
      let (identity, world) := world.makePromise state
      runWith caller (next identity) world
  | .spawn rounds lines settlement next, world =>
      let (identity, world) := world.spawn rounds lines settlement
      runWith caller (next identity) world

/-- How a callback settles its promise: an error comes first, a value second. -/
def settlementOf : List Value → Settlement
  | [] => .fulfilled .undefined
  | error :: rest =>
      if error.isNothing then .fulfilled (rest.head?.getD .undefined) else .rejected error

/-- Call a function.  A promisified function is given a callback that settles a
new promise; an error that it throws rejects the promise. -/
def callWith (caller : Caller α) : Caller α
  | .native _ identity, arguments, world =>
      match world.natives[identity]? with
      | some behavior => runWith caller (behavior arguments) world
      | none => (.ok .undefined, world)
  | .helper _ command, arguments, world =>
      match Dictionary.find? command world.workspace.helpers with
      | some helper => runWith caller (helper.handler arguments) world
      | none => (.error (notFunction command), world)
  | .settler promise, arguments, world =>
      (.ok .undefined, world.settle promise (settlementOf arguments))
  | .promisified target, arguments, world =>
      let (promise, world) := world.makePromise .pending
      match callWith caller target (arguments ++ [.function (.settler promise)]) world with
      | (.ok _, world) => (.ok (.promise promise), world)
      | (.error error, world) =>
          (.ok (.promise promise), world.settle promise (.rejected (.ofError error)))

/-- Call a function, with further calls up to a depth. -/
def callAt : (depth : Nat) → Caller α
  | 0 => callWith refuseCall
  | depth + 1 => callWith (callAt depth)

def call (function : Function) (arguments : List Value) (world : World α) :
    Outcome × World α :=
  callAt world.limits.callDepth function arguments world

def run (program : Program) (world : World α) : Outcome × World α :=
  runWith (callAt world.limits.callDepth) program world

def finish (world : World α) (task : Task) : World α :=
  { world with console := world.console.printLines task.lines }.settle task.promise
    task.settlement

/-- Give every task a turn: those that are due are finished, the others wait for one
round less. -/
def round (world : World α) : World α :=
  let due := world.tasks.filter (·.rounds = 0)
  let waiting := world.tasks.filter (·.rounds ≠ 0)
  due.foldl finish
    { world with tasks := waiting.map fun task => { task with rounds := task.rounds - 1 } }

/-- Wait for a promise for at most a number of rounds. -/
def awaitWithin (promise : Nat) : (rounds : Nat) → World α → Option Settlement × World α
  | 0, world => ((world.promises.state promise).settlement?, world)
  | rounds + 1, world =>
      match (world.promises.state promise).settlement? with
      | some settlement => (some settlement, world)
      | none => awaitWithin promise rounds world.round

/-- Wait for a promise; nothing if all tasks end and it has not settled. -/
def await (promise : Nat) (world : World α) : Option Settlement × World α :=
  awaitWithin promise ((world.tasks.map (·.rounds + 1)).foldl max 0) world

end World

end ScriptConsole

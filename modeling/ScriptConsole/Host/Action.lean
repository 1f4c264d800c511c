import ScriptConsole.Host

/-!
# Actions

A program may be written as actions in a row.  Each is given the result so far
and says with which result the next goes on.
-/

namespace ScriptConsole

structure NamedUnit where
  unit : CompiledUnit
  filename : String

structure ActionContext where
  /-- The code that a host executes. -/
  unit : Option NamedUnit
  /-- The arguments of a call. -/
  arguments : List Value

/-- An action, given the result so far and what follows. -/
abbrev Action : Type :=
  ActionContext → (result : Value) → (next : Value → Program) → Program

namespace Action

def inTurn (context : ActionContext) : List Action → (result : Value) → Program
  | [], result => .give result
  | action :: rest, result => action context result (inTurn context rest)

def behavior (actions : List Action) : Behavior :=
  fun arguments => inTurn ⟨none, arguments⟩ actions .undefined

def host (actions : List Action) : Host :=
  fun unit filename => inTurn ⟨some ⟨unit, filename⟩, []⟩ actions .undefined

def strings (texts : List String) : Value :=
  .array (texts.map .string)

def keep (act : Program → Program) : Action :=
  fun _ result next => act (next result)

def orUndefined (next : Value → Program) (value : Option Value) : Program :=
  next (value.getD .undefined)

def setArgument (name : String) (index : Nat) : Action :=
  fun context result next =>
    .setName name (context.arguments[index]?.getD .undefined) (next result)

def removeName (name : String) : Action :=
  fun _ _ next => .removeName name (orUndefined next)

def getName (name : String) : Action :=
  fun _ _ next => .getName name (orUndefined next)

def callName (name : String) (arguments : List Value) : Action :=
  fun _ _ next => .callName name arguments (Program.orThrow next)

def callOnNames (name : String) (names : List String) : Action :=
  fun _ _ next =>
    .getNames names fun arguments => .callName name arguments (Program.orThrow next)

def call (function : Function) (arguments : List Value) : Action :=
  fun _ _ next => .call function arguments (Program.orThrow next)

def callLast (passed : List Value) : Action :=
  fun context _ next =>
    match context.arguments.getLast? with
    | some (.function function) => .call function passed (Program.orThrow next)
    | _ => .throw (.wrongType "no callback")

def store (name : String) : Action :=
  fun _ result next => .setName name result (next result)

def arguments : Action :=
  fun context _ next => next (.array context.arguments)

def give (value : Value) : Action :=
  fun _ _ _ => .give value

def throw (failure : HelperFailure) : Action :=
  fun _ _ _ => .throw failure.toScriptError

def isLive : Action :=
  fun _ _ next => .bufferedLines fun lines => next (.bool lines.isSome)

def names : Action :=
  fun _ _ next => .names fun names => next (strings names)

def helperNames : Action :=
  fun _ _ next => .helperNames fun names => next (strings names)

def bufferedLines : Action :=
  fun _ _ next => .bufferedLines fun lines => next ((lines.map strings).getD .null)

def spawn (rounds : Nat) (settlement : Settlement) : Action :=
  fun _ _ next => .spawn rounds [] settlement fun identity => next (.promise identity)

def resolved : Action :=
  fun _ result next =>
    .makePromise (.fulfilled result) fun identity => next (.promise identity)

/-- What there is to see of the code that a host executes. -/
def ofUnit (view : NamedUnit → Value) : Action :=
  fun context _ next => next ((context.unit.map view).getD .undefined)

/-- Throw what is wrong with the code that a host executes. -/
def check : Action :=
  fun context result next =>
    match context.unit.bind fun named => Completeness.check named.unit.code.toList with
    | some fault => .throw fault.toScriptError
    | none => next result

end Action

end ScriptConsole

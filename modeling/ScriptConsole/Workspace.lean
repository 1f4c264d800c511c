import ScriptConsole.Program
import ScriptConsole.Text.Width
import ScriptConsole.Value.Inspect

/-!
# Workspaces

A workspace holds the names that statements define and the helper commands of
the session.  When the session goes live, every helper becomes a function under
its name; helpers that are added later become one at once.
-/

namespace ScriptConsole

structure HelperOptions where
  description : Option String
  /-- What is shown in listings in place of the name. -/
  usage : Option String
  /-- The name of the function. -/
  handlerName : Option String
  deriving DecidableEq, Repr

structure Helper where
  name : String
  handlerName : String
  description : Option String
  usage : Option String
  /-- The columns that listings take for the helper. -/
  width : Nat
  handler : Behavior

namespace Helper

def label (helper : Helper) : String :=
  helper.usage.getD helper.name

def toValue (helper : Helper) : Value :=
  .function (.helper helper.handlerName helper.name)

def ofOptions (name : String) (options : HelperOptions) (handler : Behavior) : Helper :=
  ⟨name, options.handlerName.getD name, options.description, options.usage,
    Text.displayWidth (options.usage.getD name).toList, handler⟩

end Helper

structure Workspace where
  /-- The names that have a value, in the order of their definition. -/
  names : Dictionary Value
  helpers : Dictionary Helper
  /-- The columns of the widest helper that was ever added. -/
  longestWidth : Nat
  /-- Helpers become functions when they are added. -/
  live : Bool

namespace Workspace

def empty : Workspace :=
  ⟨[], [], 0, false⟩

def setName (workspace : Workspace) (name : String) (value : Value) : Workspace :=
  { workspace with names := Dictionary.insert name value workspace.names }

def removeName (workspace : Workspace) (name : String) : Workspace :=
  { workspace with names := Dictionary.erase name workspace.names }

/-- Put the function of a helper under its name. -/
def install (names : Dictionary Value) (helper : Helper) : Dictionary Value :=
  Dictionary.insert helper.name helper.toValue names

/-- Add a helper; a helper of the same name is replaced. -/
def addHelper (workspace : Workspace) (helper : Helper) : Workspace :=
  { workspace with
    names := if workspace.live then install workspace.names helper else workspace.names
    helpers := Dictionary.insert helper.name helper workspace.helpers
    longestWidth := max workspace.longestWidth helper.width }

def goLive (workspace : Workspace) : Workspace :=
  { workspace with
    names := workspace.helpers.values.foldl install workspace.names
    live := true }

/-- Names that a host may define for all code. -/
def hostGlobals : List String :=
  ["performance", "global", "clearInterval", "clearTimeout", "setInterval", "setTimeout",
    "queueMicrotask", "clearImmediate", "setImmediate", "structuredClone", "atob", "btoa",
    "fetch", "crypto", "exports"]

/-- Names that compiled code defines for its own use. -/
def compilerHelpers : List String :=
  ["__extends", "__assign", "__rest", "__decorate", "__param", "__esDecorate",
    "__runInitializers", "__propKey", "__setFunctionName", "__metadata", "__awaiter",
    "__generator", "__exportStar", "__createBinding", "__values", "__read", "__spread",
    "__spreadArrays", "__spreadArray", "__await", "__asyncGenerator", "__asyncDelegator",
    "__asyncValues", "__makeTemplateObject", "__importStar", "__importDefault",
    "__classPrivateFieldGet", "__classPrivateFieldSet", "__classPrivateFieldIn"]

def hides (workspace : Workspace) (hideCompilerHelpers : Bool) (name : String) : Bool :=
  Dictionary.contains name workspace.helpers || hostGlobals.contains name ||
    (hideCompilerHelpers && compilerHelpers.contains name)

def properties (workspace : Workspace) (hideCompilerHelpers : Bool) : Dictionary Value :=
  workspace.names.filter fun entry => !workspace.hides hideCompilerHelpers entry.1

def propertyDepth : Nat := 1

def propertyText (workspace : Workspace) (hideCompilerHelpers : Bool) (palette : Palette)
    (promises : Promises) : String :=
  (Value.object (workspace.properties hideCompilerHelpers)).inspect
    ⟨palette, some propertyDepth⟩ promises

/-- The columns between the widest helper and the descriptions. -/
def listingGap : Nat := 2

/-- The part of a line of the listing before the description. -/
def listingHead (workspace : Workspace) (palette : Palette) (helper : Helper) : String :=
  palette.paint .yellow helper.label ++
    String.ofList (List.replicate (workspace.longestWidth - helper.width + listingGap) ' ')

def listingLine (workspace : Workspace) (palette : Palette) (helper : Helper) : String :=
  workspace.listingHead palette helper ++ palette.paint .dim (helper.description.getD "")

def listing (workspace : Workspace) (palette : Palette) : List String :=
  workspace.helpers.values.map (workspace.listingLine palette)

def removeBehavior : Behavior
  | .string name :: _ =>
      if name.isEmpty then complaint else .removeName name fun _ => closing
  | _ => complaint
where
  closing : Program :=
    .showPrompt (.give .undefined)
  complaint : Program :=
    .palette fun palette =>
      .printLine (palette.paint .red "Define a property name to remove from the context")
        closing

/-- What turning a function that takes a callback into one that returns a promise
does. -/
def promisifyBehavior : Behavior
  | .function function :: _ => .give (.function (.promisified function))
  | _ =>
      .throw (HelperFailure.toScriptError
        (.badArgument "The \"original\" argument must be of type function"))

def builtins (palette : Palette) : List Helper :=
  [.ofOptions "clear"
      ⟨some "Clear a property from the REPL context",
        some ("clear " ++ palette.paint .gray "(propertyName)"), none⟩ removeBehavior,
    .ofOptions "p"
      ⟨some "Promisify a function. Similar to Node.js \"util.promisify\"",
        some ("p " ++ palette.paint .gray "(function)"), some "promisify"⟩
      promisifyBehavior]

def addBuiltins (workspace : Workspace) (palette : Palette) : Workspace :=
  (builtins palette).foldl addHelper workspace

end Workspace

end ScriptConsole

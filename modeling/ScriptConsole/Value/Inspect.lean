import ScriptConsole.Number.Text
import ScriptConsole.Palette
import ScriptConsole.Text.Identifier
import ScriptConsole.Text.Search
import ScriptConsole.Value.Promises

/-!
# Inspecting values

A value is shown on one line.  Arrays and objects below a given depth collapse;
promises show what they have settled with, so a chain of promises that leads
back to itself has no text.
-/

namespace ScriptConsole.Value

/-- The escapes of a character in quoted text. -/
def quoteChar (c : Char) : List Char :=
  if c = '\\' then ['\\', '\\']
  else if c = '\'' then ['\\', '\'']
  else if c = '\n' then ['\\', 'n']
  else [c]

def quote (text : List Char) : List Char :=
  '\'' :: text.flatMap quoteChar ++ ['\'']

def isPlainKey : List Char → Bool
  | [] => false
  | c :: cs => Text.isIdentStart c && cs.all Text.isIdentContinue

/-- A key of an object, in quotes unless it is an identifier. -/
def showKey (key : List Char) : List Char :=
  if isPlainKey key then key else quote key

structure View where
  palette : Palette
  /-- The greatest depth of arrays and objects that are shown; none for all. -/
  depth : Option Nat
  deriving DecidableEq, Repr

namespace View

def paint (view : View) (style : Style) (text : String) : List Char :=
  view.palette.paintChars style text.toList

/-- Whether arrays and objects at a level collapse. -/
def collapses (view : View) (level : Nat) : Bool :=
  view.depth.any (· < level)

end View

def showBool (value : Bool) : String :=
  if value then "true" else "false"

mutual

/-- Show a value at a level, given how its promises are shown. -/
def showWith (view : View) (showPromise : Nat → Nat → Option (List Char))
    (level : Nat) : Value → Option (List Char)
  | undefined => some (view.paint .gray "undefined")
  | null => some (view.paint .bold "null")
  | bool value => some (view.paint .yellow (showBool value))
  | number value => some (view.palette.paintChars .yellow value.text)
  | string value => some (view.palette.paintChars .green (quote value.toList))
  | function value => some (view.paint .cyan value.label)
  | promise identity => showPromise level identity
  | array [] => some ['[', ']']
  | array (item :: items) =>
      if view.collapses level then some (view.paint .cyan "[Array]")
      else do
        let first ← showWith view showPromise (level + 1) item
        let rest ← showItems view showPromise (level + 1) items
        some (['[', ' '] ++ first ++ rest ++ [' ', ']'])
  | object [] => some ['{', '}']
  | object ((key, item) :: fields) =>
      if view.collapses level then some (view.paint .cyan "[Object]")
      else do
        let first ← showWith view showPromise (level + 1) item
        let rest ← showFields view showPromise (level + 1) fields
        some (['{', ' '] ++ showKey key.toList ++ [':', ' '] ++ first ++ rest ++ [' ', '}'])

/-- Show the items of an array after its first. -/
def showItems (view : View) (showPromise : Nat → Nat → Option (List Char))
    (level : Nat) : List Value → Option (List Char)
  | [] => some []
  | item :: items => do
      let first ← showWith view showPromise level item
      let rest ← showItems view showPromise level items
      some ([',', ' '] ++ first ++ rest)

/-- Show the fields of an object after its first. -/
def showFields (view : View) (showPromise : Nat → Nat → Option (List Char))
    (level : Nat) : List (String × Value) → Option (List Char)
  | [] => some []
  | (key, item) :: fields => do
      let first ← showWith view showPromise level item
      let rest ← showFields view showPromise level fields
      some ([',', ' '] ++ showKey key.toList ++ [':', ' '] ++ first ++ rest)

end

/-- Show a promise with at most `fuel` further promises inside one another. -/
def showPromise (view : View) (promises : Promises) :
    (fuel : Nat) → (level identity : Nat) → Option (List Char)
  | 0, _, _ => none
  | fuel + 1, level, identity =>
      let inner := showWith view (showPromise view promises fuel) (level + 1)
      match promises.state identity with
      | .pending =>
          some ("Promise \x7b ".toList ++ view.paint .cyan "<pending>" ++ " \x7d".toList)
      | .fulfilled value =>
          (inner value).map fun text => "Promise \x7b ".toList ++ text ++ " \x7d".toList
      | .rejected reason =>
          (inner reason).map fun text =>
            "Promise \x7b ".toList ++ view.paint .red "<rejected>" ++ ' ' :: text ++
              " \x7d".toList

/-- More promises than a text can hold inside one another. -/
def promiseBound (view : View) (promises : Promises) : Nat :=
  view.depth.getD 0 + promises.states.length + 2

/-- Show a value; none if its promises lead back to themselves. -/
def inspect? (view : View) (promises : Promises) (value : Value) : Option (List Char) :=
  showWith view (showPromise view promises (promiseBound view promises)) 0 value

def inspect (view : View) (promises : Promises) (value : Value) : String :=
  String.ofList ((inspect? view promises value).getD [])

mutual

/-- The text that a value becomes where a text is wanted; nothing has none among
the items of an array. -/
def toText : Value → List Char
  | undefined => "undefined".toList
  | null => "null".toList
  | bool value => (showBool value).toList
  | number value => value.text
  | string value => value.toList
  | function value => value.label.toList
  | object _ | promise _ => "[object Object]".toList
  | array [] => []
  | array (item :: items) =>
      (if item.isNothing then [] else toText item) ++ itemsText items

/-- The texts of the items of an array after its first. -/
def itemsText : List Value → List Char
  | [] => []
  | item :: items =>
      ',' :: (if item.isNothing then [] else toText item) ++ itemsText items

end

def display (value : Value) : String :=
  String.ofList value.toText

/-- The error that a rejection with this reason is. -/
def rejectionError (reason : Value) : ScriptError :=
  reason.rejection reason.display

end ScriptConsole.Value

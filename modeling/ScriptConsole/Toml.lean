import ScriptConsole.Dictionary

/-!
# TOML documents

A document is a table.  Tables are built up piece by piece, by headers and by
dotted keys; how a table came about decides what may be added to it later.
-/

namespace ScriptConsole

/-- How a table came about. -/
inductive TomlOrigin where
  /-- It is the root or has a header of its own. -/
  | header
  /-- A longer header implies it. -/
  | implied
  /-- Dotted keys made it. -/
  | dotted
  /-- It was written as a value. -/
  | inline
  deriving DecidableEq, Repr

inductive Toml where
  | string (text : String)
  | integer (n : Int)
  | boolean (value : Bool)
  | float
  | dateTime
  | array (items : List Toml)
  | table (origin : TomlOrigin) (entries : List (String × Toml))
  /-- An array of tables, each of which has a header. -/
  | tables (items : List (List (String × Toml)))
  deriving Repr, Inhabited

namespace Toml

abbrev Entries : Type :=
  List (String × Toml)

/-- Change the last of the tables of an array. -/
def changeLast (change : Entries → Option Entries) :
    List Entries → Option (List Entries)
  | [] => none
  | [entries] => (change entries).map fun changed => [changed]
  | entries :: rest => (changeLast change rest).map (entries :: ·)

/-- Put a value under a dotted key.  Only dotted keys may add to tables that
dotted keys made, and a key has one value. -/
def insert : (path : List String) → (key : String) → Toml → Entries → Option Entries
  | [], key, value, entries =>
      if Dictionary.contains key entries then none else some (entries ++ [(key, value)])
  | name :: path, key, value, entries =>
      let put (child : Toml) : Entries := Dictionary.insert name child entries
      match Dictionary.find? name entries with
      | none => (insert path key value []).map fun inner => put (.table .dotted inner)
      | some (.table .dotted inner) =>
          (insert path key value inner).map fun inner => put (.table .dotted inner)
      | some (.table .implied inner) =>
          if path.isEmpty then none
          else (insert path key value inner).map fun inner => put (.table .implied inner)
      | some (.tables items) =>
          if path.isEmpty then none
          else (changeLast (insert path key value) items).map fun items => put (.tables items)
      | some _ => none

/-- Change the entries of the table that a header's path leads to. -/
def changeAt (change : Entries → Option Entries) : (path : List String) → Entries → Option Entries
  | [], entries => change entries
  | name :: path, entries =>
      let put (child : Toml) : Entries := Dictionary.insert name child entries
      match Dictionary.find? name entries with
      | none => (changeAt change path []).map fun inner => put (.table .implied inner)
      | some (.table .inline _) => none
      | some (.table origin inner) =>
          (changeAt change path inner).map fun inner => put (.table origin inner)
      | some (.tables items) =>
          (changeLast (changeAt change path) items).map fun items => put (.tables items)
      | some _ => none

/-- A key and its value; a dotted key has a path before its last name. -/
structure Entry where
  path : List String
  key : String
  value : Toml

/-- The entries of a table, added to those that it has. -/
def addAll (added : List Entry) (entries : Entries) : Option Entries :=
  added.foldlM (fun entries entry => insert entry.path entry.key entry.value entries) entries

/-- A header and the entries below it. -/
structure Section where
  path : List String
  key : String
  /-- The header adds a table to an array. -/
  repeats : Bool
  entries : List Entry

/-- Add the table of a section to the table that it is in. -/
def Section.addTo (part : Section) (parent : Entries) : Option Entries :=
  let put (child : Toml) : Entries := Dictionary.insert part.key child parent
  match part.repeats, Dictionary.find? part.key parent with
  | false, none => (addAll part.entries []).map fun entries => put (.table .header entries)
  | false, some (.table .implied old) =>
      (addAll part.entries old).map fun entries => put (.table .header entries)
  | true, none => (addAll part.entries []).map fun entries => put (.tables [entries])
  | true, some (.tables items) =>
      (addAll part.entries []).map fun entries => put (.tables (items ++ [entries]))
  | _, _ => none

/-- The document of the entries before the first header and of the sections. -/
def ofSections (entries : List Entry) (sections : List Section) : Option Entries :=
  sections.foldlM (fun root part => changeAt part.addTo part.path root) =<<
    addAll entries []

end Toml

end ScriptConsole

import ScriptConsole.Toml.Scalar

/-!
# Reading documents

A document is read line by line: entries belong to the header before them.
-/

namespace ScriptConsole.Toml

namespace Reader

/-- The items of an array; a comma may follow the last. -/
def arrayItems (item : Reader Toml) : Reader (List Toml) := do
  exactly '['
  let items ← separated (do space; let value ← item; space; return value) (exactly ',')
  if !items.isEmpty then
    let _ ← maybe (exactly ',')
  space
  exactly ']'
  return items

def entryOf (item : Reader Toml) : Reader Entry := do
  let (path, key) ← dottedKey
  exactly '='
  blanks
  return ⟨path, key, ← item⟩

/-- The entries of a table that is written as a value, on one line. -/
def inlineEntries (item : Reader Toml) : Reader Entries := do
  exactly '\x7b'
  let entries ← separated (do let entry ← entryOf item; blanks; return entry) (exactly ',')
  blanks
  exactly '\x7d'
  match addAll entries [] with
  | some entries => return entries
  | none => failure

/-- A value that holds others down to a depth. -/
def valueWithin : (depth : Nat) → Reader Toml
  | 0 => scalar
  | depth + 1 =>
      (do return .array (← arrayItems (valueWithin depth))) <|>
      (do return .table .inline (← inlineEntries (valueWithin depth))) <|> scalar

def value : Reader Toml :=
  valueWithin depthLimit

/-- A header: where the table goes, and whether it is one of many. -/
def header : Reader Section :=
  (do
    word "[["
    let (path, key) ← dottedKey
    word "]]"
    endOfLine
    return ⟨path, key, true, []⟩) <|>
  (do
    exactly '['
    let (path, key) ← dottedKey
    exactly ']'
    endOfLine
    return ⟨path, key, false, []⟩)

def entryLine : Reader Entry := do
  let entry ← entryOf value
  endOfLine
  return entry

def emptyLines : Reader Unit := do
  blanks
  let _ ← many (do
    newline <|> (do comment; lineEnd)
    blanks)

def entryLines : Reader (List Entry) := do
  emptyLines
  many (do let entry ← entryLine; emptyLines; return entry)

def sectionLines : Reader Section := do
  let head ← header
  return { head with entries := ← entryLines }

/-- The mark that may open a file of text. -/
def byteOrderMark : Reader Unit :=
  exactly '\ufeff'

def document : Reader Entries := do
  let _ ← maybe byteOrderMark
  let entries ← entryLines
  let sections ← many sectionLines
  atEnd
  match ofSections entries sections with
  | some entries => return entries
  | none => failure

end Reader

def parse? (text : String) : Option Entries :=
  (Reader.document text.toList).map (·.1)

end ScriptConsole.Toml

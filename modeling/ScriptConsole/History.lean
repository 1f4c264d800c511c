import ScriptConsole.Disk
import ScriptConsole.Text.Blank
import ScriptConsole.Text.Search
import ScriptConsole.Text.Utf8

/-!
# History

The lines of earlier input.  Blank lines and repetitions of the latest line are
left out; a full history forgets its oldest line.  A file holds one entry a
line.
-/

namespace ScriptConsole

inductive HistoryFailure where
  | notOpened (path : String) (cause : String)
  | notLoaded (path : String) (cause : String)
  | notSaved (path : String) (cause : String)
  deriving DecidableEq, Repr

namespace HistoryFailure

def message : HistoryFailure → String
  | notOpened path cause => "cannot open history file " ++ path ++ ": " ++ cause
  | notLoaded path cause => "cannot load history from " ++ path ++ ": " ++ cause
  | notSaved path cause => "cannot save history to " ++ path ++ ": " ++ cause

end HistoryFailure

def notTextMessage : String :=
  "stream did not contain valid UTF-8"

structure History where
  /-- The entries, oldest first. -/
  entries : List String
  /-- The greatest number of entries. -/
  limit : Nat
  deriving DecidableEq, Repr, Inhabited

namespace History

def empty (limit : Nat) : History :=
  ⟨[], limit⟩

def add (history : History) (line : String) : History :=
  if Text.isAllBlank line.toList || history.entries.getLast? == some line then history
  else
    let entries := history.entries ++ [line]
    { history with entries := entries.drop (entries.length - history.limit) }

def addAll (history : History) (lines : List String) : History :=
  lines.foldl add history

/-- A line of a file without the carriage return at its end. -/
def withoutReturn (line : List Char) : List Char :=
  if line.getLast? = some '\r' then line.dropLast else line

/-- The lines of a file; the last need not end in a line feed. -/
def linesOf (text : List Char) : List String :=
  let pieces := Text.cutAtChar '\n' text
  let lines := pieces.dropLast.map withoutReturn
  let last := pieces.getLast?.getD []
  (if last.isEmpty then lines else lines ++ [last]).map String.ofList

def fileText (history : History) : String :=
  String.join (history.entries.map (· ++ "\n"))

/-- Add the lines of a file; there need not be one. -/
def load (history : History) (disk : Disk) (path : String) :
    Except HistoryFailure History :=
  match disk.read path with
  | .error .notFound => .ok history
  | .error fault => .error (.notLoaded path fault.message)
  | .ok bytes =>
      match Text.decode? bytes with
      | none => .error (.notLoaded path notTextMessage)
      | some text => .ok (history.addAll (linesOf text.toList))

def save (history : History) (disk : Disk) (path : String) :
    Except HistoryFailure Disk :=
  match disk.write path (Text.encode history.fileText) with
  | .error fault => .error (.notSaved path fault.message)
  | .ok disk => .ok disk

@[simp] theorem limit_add (history : History) (line : String) :
    (history.add line).limit = history.limit := by
  unfold add
  split <;> rfl

end History

end ScriptConsole

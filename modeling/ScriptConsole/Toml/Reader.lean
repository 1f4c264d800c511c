import ScriptConsole.Text.Hex
import ScriptConsole.Text.Search

/-!
# Readers

A reader takes a part off the front of a text, or fails and takes nothing.
-/

namespace ScriptConsole.Toml

abbrev Reader : Type → Type :=
  StateT (List Char) Option

namespace Reader

variable {α β : Type}

def one (isWanted : Char → Bool) : Reader Char :=
  fun cs =>
    match cs with
    | c :: rest => if isWanted c then some (c, rest) else none
    | [] => none

def exactly (wanted : Char) : Reader Unit := do
  let _ ← one (· == wanted)

def word (text : String) : Reader Unit :=
  fun cs => (Text.afterWord? text.toList cs).map ((), ·)

/-- All characters of a class that come next. -/
def run (isWanted : Char → Bool) : Reader (List Char) :=
  fun cs => some (cs.takeWhile isWanted, cs.dropWhile isWanted)

def atEnd : Reader Unit :=
  fun cs => if cs.isEmpty then some ((), cs) else none

def maybe (reader : Reader α) : Reader (Option α) :=
  (some <$> reader) <|> pure none

def count (isWanted : Char → Bool) : Nat → Reader (List Char)
  | 0 => pure []
  | n + 1 => do
      let c ← one isWanted
      return c :: (← count isWanted n)

def atMost (reader : Reader α) : Nat → Reader (List α)
  | 0 => pure []
  | n + 1 => do
      match ← maybe reader with
      | none => return []
      | some first => return first :: (← atMost reader n)

/-- All parts of a kind that come next; none of them is empty. -/
def many (reader : Reader α) : Reader (List α) := do
  atMost reader (← get).length

/-- Parts of a kind with something between them; there may be none. -/
def separated (reader : Reader α) (separator : Reader β) : Reader (List α) := do
  match ← maybe reader with
  | none => return []
  | some first => return first :: (← many (do let _ ← separator; reader))

end Reader

end ScriptConsole.Toml

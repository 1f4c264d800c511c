import ScriptConsole.Text.Identifier
import ScriptConsole.Text.Search
import ScriptConsole.Text.Utf8

/-!
# Completion

The word before the cursor is completed from the names of the session and from
the keywords.  A line that is only a dot and letters is completed from the
directives.
-/

namespace ScriptConsole

/-- What is offered to complete input. -/
structure Completer where
  names : List String
  /-- The names of directives, without the dot. -/
  directives : List String
  deriving DecidableEq, Repr

/-- Matches for the text from byte `start` to the cursor. -/
structure Completions where
  start : Nat
  «matches» : List String
  deriving DecidableEq, Repr

namespace Completer

def keywords : List String :=
  ["async", "await", "break", "case", "catch", "class", "const", "continue",
    "debugger", "default", "delete", "do", "else", "export", "extends", "false",
    "finally", "for", "function", "if", "import", "in", "instanceof", "let", "new",
    "null", "of", "return", "static", "super", "switch", "this", "throw", "true",
    "try", "typeof", "undefined", "var", "void", "while", "yield"]

/-- Tell published directives, which start with a dot, from names. -/
def ofPublished (published : List String) : Completer :=
  let isDirective (name : String) : Bool := name.toList.head? == some '.'
  ⟨published.filter fun name => !isDirective name,
    (published.filter isDirective).map fun name =>
      String.ofList (name.toList.dropWhile (· = '.'))⟩

/-- The letters after the dot, if the text is the start of a directive. -/
def directiveStart? : List Char → Option (List Char)
  | '.' :: letters => if letters.all Text.isAsciiLetter then some letters else none
  | _ => none

def lastWord (before : List Char) : List Char :=
  (before.reverse.takeWhile Text.isIdentContinue).reverse

def beforeWord (before : List Char) : List Char :=
  (before.reverse.dropWhile Text.isIdentContinue).reverse

def startsWith (word : List Char) (name : String) : Bool :=
  word.isPrefixOf name.toList

/-- Leave out the repetitions of a sorted list. -/
def distinct : List String → List String
  | [] => []
  | [name] => [name]
  | name :: next :: rest =>
      if name = next then distinct (next :: rest) else name :: distinct (next :: rest)

/-- The names and keywords that start with a word, in order. -/
def matchesOf (completer : Completer) (word : List Char) : List String :=
  let found := (completer.names ++ keywords).filter (startsWith word)
  distinct (found.mergeSort (fun a b => decide (a ≤ b)))

/-- Complete a line, given the text before the cursor. -/
def complete (completer : Completer) (before : List Char) : Completions :=
  match directiveStart? before with
  | some letters =>
      ⟨0, (completer.directives.filter (startsWith letters)).map ("." ++ ·)⟩
  | none =>
      let word := lastWord before
      let lead := beforeWord before
      ⟨Text.byteLength lead,
        if word.isEmpty || lead.getLast? == some '.' then []
        else completer.matchesOf word⟩

theorem beforeWord_append_lastWord (before : List Char) :
    beforeWord before ++ lastWord before = before := by
  rw [beforeWord, lastWord, ← List.reverse_append, List.takeWhile_append_dropWhile,
    List.reverse_reverse]

end Completer

end ScriptConsole

import ScriptConsole.Text.Hex

/-!
# Written strings

A string is written in the plainest form that can hold it: on one line with
double or single quotes, on several lines with three of either, and only if
none of these will do with escapes.
-/

namespace ScriptConsole.Toml

inductive StringForm where
  /-- Double quotes and escapes. -/
  | basic
  /-- Single quotes, and nothing is escaped. -/
  | literal
  | longBasic
  | longLiteral
  deriving DecidableEq, Repr

namespace StringForm

def delimiter : StringForm → List Char
  | basic => ['"']
  | literal => ['\'']
  | longBasic => ['"', '"', '"']
  | longLiteral => ['\'', '\'', '\'']

/-- Whether a form may go over several lines. -/
def isLong : StringForm → Bool
  | basic | literal => false
  | longBasic | longLiteral => true

def escapes : StringForm → Bool
  | basic | longBasic => true
  | literal | longLiteral => false

/-- The number of double quotes in a row that are not escaped. -/
def freeQuotes : StringForm → Nat
  | basic => 0
  | _ => 2

end StringForm

/-- The length of the run of a character that a text opens with, and the length
of the longest. -/
def runsOf (wanted : Char) : List Char → Nat × Nat
  | [] => (0, 0)
  | c :: cs =>
      let (first, longest) := runsOf wanted cs
      if c = wanted then (first + 1, max (first + 1) longest) else (0, longest)

def longestRun (wanted : Char) (text : List Char) : Nat :=
  (runsOf wanted text).2

/-- Whether a character can be written by an escape only. -/
def needsEscape (c : Char) : Bool :=
  (c < ' ' && c ≠ '\t' && c ≠ '\n') || c == '\x7f'

def formOf (text : List Char) : StringForm :=
  let doubles := longestRun '"' text
  let singles := longestRun '\'' text
  let breaks := text.contains '\n'
  let slashes := text.contains '\\'
  if text.any needsEscape then if breaks then .longBasic else .basic
  else if !slashes && doubles = 0 && !breaks then .basic
  else if singles = 0 && !breaks then .literal
  else if !slashes && doubles ≤ 2 then .longBasic
  else if singles ≤ 2 then .longLiteral
  else if breaks then .longBasic
  else .basic

/-- A character after so many double quotes that are not escaped. -/
def writtenChar (form : StringForm) (quotes : Nat) : Char → List Char
  | '"' => if quotes < form.freeQuotes then ['"'] else ['\\', '"']
  | '\\' => ['\\', '\\']
  | '\x08' => ['\\', 'b']
  | '\t' => ['\\', 't']
  | '\n' => if form.isLong then ['\n'] else ['\\', 'n']
  | '\x0c' => ['\\', 'f']
  | '\r' => ['\\', 'r']
  | c => if needsEscape c then '\\' :: 'u' :: (Text.hexText 4 c.toNat).map Char.toUpper else [c]

def writtenChars (form : StringForm) (quotes : Nat) : List Char → List Char
  | [] => []
  | c :: cs =>
      let written := writtenChar form quotes c
      written ++ writtenChars form (if written = ['"'] then quotes + 1 else 0) cs

def written (text : String) : String :=
  let chars := text.toList
  let form := formOf chars
  String.ofList
    (form.delimiter ++
      (if form.isLong && chars.contains '\n' then ['\n'] else []) ++
      (if form.escapes then writtenChars form 0 chars else chars) ++ form.delimiter)

end ScriptConsole.Toml

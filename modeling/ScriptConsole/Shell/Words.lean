/-!
# Words of a command line

A command line is cut into words at blanks.  Quotes and backslashes keep blanks
in a word, and a hash that opens a word hides the rest of its line.
-/

namespace ScriptConsole.Shell

/-- What the reader of a command line is inside of. -/
inductive WordMode where
  /-- Between words. -/
  | between
  /-- Between words, after a backslash. -/
  | betweenEscape
  | bare
  | bareEscape
  | single
  | double
  | doubleEscape
  | comment
  deriving DecidableEq, Repr

def isSeparator (c : Char) : Bool :=
  c == ' ' || c == '\t' || c == '\n'

/-- The characters that a backslash stands for inside double quotes. -/
def isDoubleEscapable (c : Char) : Bool :=
  c == '$' || c == '\x60' || c == '"' || c == '\\'

/-- The words of a command line, given the characters of the word that has
begun.  None if a quote is not closed. -/
def wordsFrom (mode : WordMode) (word : List Char) :
    List Char → Option (List (List Char))
  | [] =>
      match mode with
      | .between | .comment => some []
      | .betweenEscape | .bareEscape => some [word ++ ['\\']]
      | .bare => some [word]
      | .single | .double | .doubleEscape => none
  | c :: cs =>
      match mode with
      | .between =>
          if c = '\'' then wordsFrom .single word cs
          else if c = '"' then wordsFrom .double word cs
          else if c = '\\' then wordsFrom .betweenEscape word cs
          else if isSeparator c then wordsFrom .between word cs
          else if c = '#' then wordsFrom .comment word cs
          else wordsFrom .bare (word ++ [c]) cs
      | .betweenEscape =>
          if c = '\n' then wordsFrom .between word cs
          else wordsFrom .bare (word ++ [c]) cs
      | .bare =>
          if c = '\'' then wordsFrom .single word cs
          else if c = '"' then wordsFrom .double word cs
          else if c = '\\' then wordsFrom .bareEscape word cs
          else if isSeparator c then
            (wordsFrom .between [] cs).map (word :: ·)
          else wordsFrom .bare (word ++ [c]) cs
      | .bareEscape =>
          if c = '\n' then wordsFrom .bare word cs
          else wordsFrom .bare (word ++ [c]) cs
      | .single =>
          if c = '\'' then wordsFrom .bare word cs
          else wordsFrom .single (word ++ [c]) cs
      | .double =>
          if c = '"' then wordsFrom .bare word cs
          else if c = '\\' then wordsFrom .doubleEscape word cs
          else wordsFrom .double (word ++ [c]) cs
      | .doubleEscape =>
          if c = '\n' then wordsFrom .double word cs
          else if isDoubleEscapable c then wordsFrom .double (word ++ [c]) cs
          else wordsFrom .double (word ++ ['\\', c]) cs
      | .comment =>
          if c = '\n' then wordsFrom .between word cs
          else wordsFrom .comment word cs

def words? (line : List Char) : Option (List (List Char)) :=
  wordsFrom .between [] line

end ScriptConsole.Shell

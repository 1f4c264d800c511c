import ScriptConsole.Text.Identifier
import ScriptConsole.Toml.Reader

/-!
# Blanks, keys and strings of documents
-/

namespace ScriptConsole.Toml.Reader

def isBlankChar (c : Char) : Bool :=
  c == ' ' || c == '\t'

def blanks : Reader Unit := do
  let _ ← run isBlankChar

def newline : Reader Unit :=
  exactly '\n' <|> word "\r\n"

/-- Characters that text may hold; of the control characters, tabs only. -/
def isTextChar (c : Char) : Bool :=
  c == '\t' || (' ' ≤ c && c ≠ '\x7f')

def comment : Reader Unit := do
  exactly '#'
  let _ ← run isTextChar

def lineEnd : Reader Unit :=
  newline <|> atEnd

/-- The rest of a line after a value or a header. -/
def endOfLine : Reader Unit := do
  blanks
  let _ ← maybe comment
  lineEnd

def space : Reader Unit := do
  let _ ← many ((do let _ ← one isBlankChar) <|> newline <|> (do comment; newline))

/-! ## Strings -/

/-- The character of a number of hexadecimal digits. -/
def codePoint (digits : Nat) : Reader Char := do
  let code ← count (fun c => (Text.hexDigit? c).isSome) digits
  match Text.hexNat? code with
  | some n => if n.isValidChar then return Char.ofNat n else failure
  | none => failure

def escaped : Reader Char := do
  match ← one fun _ => true with
  | 'b' => return '\x08'
  | 't' => return '\t'
  | 'n' => return '\n'
  | 'f' => return '\x0c'
  | 'r' => return '\r'
  | '"' => return '"'
  | '\\' => return '\\'
  | 'u' => codePoint 4
  | 'U' => codePoint 8
  | _ => failure

def isBasicChar (c : Char) : Bool :=
  isTextChar c && c ≠ '"' && c ≠ '\\'

def isLiteralChar (c : Char) : Bool :=
  isTextChar c && c ≠ '\''

def basicString : Reader String := do
  exactly '"'
  let text ← many (one isBasicChar <|> (do exactly '\\'; escaped))
  exactly '"'
  return String.ofList text

def literalString : Reader String := do
  exactly '\''
  let text ← run isLiteralChar
  exactly '\''
  return String.ofList text

/-- Quotes in a string of several lines: one or two at a time. -/
def innerQuotes (quote : Char) : Reader (List Char) := do
  let quotes ← run (· == quote)
  if quotes.length = 1 || quotes.length = 2 then return quotes else failure

/-- The quotes that end a string of several lines, and those that belong to it. -/
def closingQuotes (quote : Char) : Reader (List Char) := do
  let quotes ← run (· == quote)
  if 3 ≤ quotes.length && quotes.length ≤ 5 then return quotes.drop 3 else failure

def lineBreakText : Reader (List Char) := do
  newline
  return ['\n']

/-- A backslash at the end of a line, and all blanks and line breaks after it. -/
def lineContinuation : Reader (List Char) := do
  exactly '\\'
  blanks
  newline
  let _ ← many ((do let _ ← one isBlankChar) <|> newline)
  return []

/-- A string of several lines, given its parts. -/
def longString (quote : Char) (part : Reader (List Char)) : Reader String := do
  word (String.ofList [quote, quote, quote])
  let _ ← maybe newline
  let parts ← many (part <|> lineBreakText <|> innerQuotes quote)
  let last ← closingQuotes quote
  return String.ofList (parts.flatten ++ last)

def longBasicString : Reader String :=
  longString '"'
    ((do return [← one isBasicChar]) <|> lineContinuation <|>
      (do exactly '\\'; return [← escaped]))

def longLiteralString : Reader String :=
  longString '\'' (do return [← one isLiteralChar])

def string : Reader String :=
  longBasicString <|> basicString <|> longLiteralString <|> literalString

/-! ## Keys -/

def isBareKeyChar (c : Char) : Bool :=
  Text.isAsciiAlphanumeric c || c == '_' || c == '-'

def bareKey : Reader String := do
  let name ← run isBareKeyChar
  if name.isEmpty then failure else return String.ofList name

/-- The greatest number of names and of levels that a document may go down. -/
def depthLimit : Nat := 79

/-- A key of names between dots: all names but the last, and the last. -/
def dottedKey : Reader (List String × String) := do
  let names ← separated
    (do
      blanks
      let name ← bareKey <|> basicString <|> literalString
      blanks
      return name)
    (exactly '.')
  match names.getLast? with
  | some last => if names.length ≤ depthLimit then return (names.dropLast, last) else failure
  | none => failure

end ScriptConsole.Toml.Reader

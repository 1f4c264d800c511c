import ScriptConsole.Token

/-!
# Line breaks that end a statement

A line break between two tokens ends a statement when the token before it can
stand at the end of one and the token after it cannot continue an expression.
-/

namespace ScriptConsole.Statement

def nonTerminalWords : List String :=
  ["else", "do", "try", "finally", "new", "typeof", "void", "delete", "in",
    "instanceof", "of", "case", "extends", "await", "yield", "var", "let", "const",
    "function", "class", "async", "export", "import", "throw"]

/-- Words that continue the expression of the line before. -/
def continuationWords : List String :=
  ["in", "instanceof", "of", "else", "catch", "finally", "as", "satisfies"]

/-- Whether a statement may end with this token. -/
def canEndWith (token : Token) : Bool :=
  match token.kind with
  | .punctuator => token.isPunctuatorIn [")", "]", "\x7d", "++", "--"]
  | .identifier => !token.isWordIn nonTerminalWords
  | _ => true

/-- Whether this token continues an expression of the line before. -/
def continuesExpression (token : Token) : Bool :=
  match token.kind with
  | .template => true
  | .punctuator => !token.isPunctuatorIn ["\x7b", "!", "~", "++", "--", "@"]
  | .identifier => token.isWordIn continuationWords
  | _ => false

/-- Whether a line break between two tokens ends a statement. -/
def breaksBetween (previous next : Token) : Bool :=
  canEndWith previous && !continuesExpression next

end ScriptConsole.Statement

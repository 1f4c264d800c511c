import ScriptConsole.ScriptError
import ScriptConsole.Token.Scan

/-!
# Completeness

A source is complete when its brackets are properly nested and its literals are
closed.  The check reports the first fault from the left; a bracket that is
still open is a fault at the end.
-/

namespace ScriptConsole

inductive Incompleteness where
  /-- A bracket or a template is open at the end. -/
  | unexpectedEnd
  /-- Quoted text is not closed on its line. -/
  | openString
  /-- A closing bracket does not match. -/
  | unexpectedCloser (bracket : Bracket)
  deriving DecidableEq, Repr

namespace Incompleteness

def message : Incompleteness → String
  | unexpectedEnd => "Unexpected end of input"
  | openString => "Invalid or unexpected token"
  | unexpectedCloser bracket =>
      "Unexpected token '" ++ String.singleton bracket.closing ++ "'"

def toScriptError (fault : Incompleteness) : ScriptError :=
  .malformed fault.message

end Incompleteness

namespace Completeness

/-- Whether the text of a literal is longer than its opening mark and ends with
the same mark. -/
def isDelimited : List Char → Bool
  | [] => false
  | mark :: more => more.getLast? == some mark

def fault? (token : Token) : Option Incompleteness :=
  match token.kind with
  | .template => if isDelimited token.text then none else some .unexpectedEnd
  | .string => if isDelimited token.text then none else some .openString
  | _ => none

/-- Check tokens inside the brackets `open`, innermost first. -/
def checkWithin (brackets : List Bracket) : List Token → Option Incompleteness
  | [] => if brackets.isEmpty then none else some .unexpectedEnd
  | token :: rest =>
      match fault? token with
      | some fault => some fault
      | none =>
          match token.opens? with
          | some bracket => checkWithin (bracket :: brackets) rest
          | none =>
              match token.closes? with
              | some bracket =>
                  if brackets.head? = some bracket then checkWithin brackets.tail rest
                  else some (.unexpectedCloser bracket)
              | none => checkWithin brackets rest

/-- The first fault of a source; none if it is complete. -/
def check (source : List Char) : Option Incompleteness :=
  checkWithin [] (tokenize source)

end Completeness

end ScriptConsole

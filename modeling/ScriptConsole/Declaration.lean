import ScriptConsole.Pattern

/-!
# Declarations

A declaration is a keyword and declarators between commas.  Taking it apart
gives the names it binds and, for every declarator with an initializer, its
pattern and its initializer.
-/

namespace ScriptConsole

/-- The pattern and the initializer of a declarator. -/
structure Assignment where
  pattern : List Token
  initializer : List Token
  deriving DecidableEq, Repr

namespace Assignment

def render (assignment : Assignment) : List Char :=
  Token.textOf assignment.pattern ++ " = ".toList ++ Token.textOf assignment.initializer

end Assignment

/-- The names that a declaration binds and its assignments, in order. -/
structure Declaration where
  names : List (List Char)
  assignments : List Assignment
  deriving DecidableEq, Repr

namespace Declaration

/-- The depth of brackets after a token; closing brackets that match nothing
leave it at zero. -/
def depthAfter (depth : Nat) (token : Token) : Nat :=
  if token.isOpener then depth + 1
  else if token.isCloser then depth - 1
  else depth

/-- The tokens before and after the first given punctuator outside brackets. -/
def splitAtTop? (text : String) (depth : Nat) :
    List Token → Option (List Token × List Token)
  | [] => none
  | token :: rest =>
      if depth = 0 ∧ token.isPunctuator text then some ([], rest)
      else
        (splitAtTop? text (depthAfter depth token) rest).map fun parts =>
          (token :: parts.1, parts.2)

/-- The parts of a run of tokens between the given punctuators outside
brackets. -/
def partsAtTop (text : String) (depth : Nat) : List Token → List (List Token)
  | [] => [[]]
  | token :: rest =>
      if depth = 0 ∧ token.isPunctuator text then [] :: partsAtTop text 0 rest
      else
        match partsAtTop text (depthAfter depth token) rest with
        | [] => [[token]]
        | part :: parts => (token :: part) :: parts

/-- The names and the assignments of one declarator; none if it opens with an
equals sign. -/
def ofDeclarator? (tokens : List Token) : Option Declaration :=
  match splitAtTop? "=" 0 tokens with
  | none => some ⟨Pattern.names tokens, []⟩
  | some ([], _) => none
  | some (pattern, []) => some ⟨Pattern.names pattern, []⟩
  | some (pattern, initializer) =>
      some ⟨Pattern.names pattern, [⟨pattern, initializer⟩]⟩

def append (left right : Declaration) : Declaration :=
  ⟨left.names ++ right.names, left.assignments ++ right.assignments⟩

/-- The declaration of all declarators in order. -/
def ofDeclarators? : List (List Token) → Option Declaration
  | [] => some ⟨[], []⟩
  | tokens :: rest => do
      let left ← ofDeclarator? tokens
      let right ← ofDeclarators? rest
      some (left.append right)

/-- Take a declaration apart; its first token is its keyword. -/
def ofTokens? (tokens : List Token) : Option Declaration :=
  ofDeclarators? (partsAtTop "," 0 tokens.tail)

/-- The name that a function or class declaration binds. -/
def declaredName? (tokens : List Token) : Option (List Char) :=
  let afterWords := tokens.dropWhile (·.isWordIn ["async", "function", "class"])
  match afterWords.find? fun token => !token.isPunctuator "*" with
  | some token => if token.isIdentifier then some token.text else none
  | none => none

end Declaration

end ScriptConsole

import ScriptConsole.Statement.Break
import ScriptConsole.Token.Scan
import ScriptConsole.Token.Template

/-!
# Suspension points

A source suspends when an `await` operator stands outside every function body,
in its own code or in a substitution of one of its templates.  One pass over the
tokens keeps the open brackets, the concise arrow bodies and the class headings
that are still to be closed.
-/

namespace ScriptConsole.Suspension

/-- An open bracket: whether it opens a function body, and whether it opens a
parameter list. -/
structure Frame where
  body : Bool
  parameters : Bool
  deriving DecidableEq, Repr

/-- What surrounds a token, innermost first. -/
structure Context where
  frames : List Frame
  /-- The depths at which concise arrow bodies have begun. -/
  arrows : List Nat
  /-- The depths at which class headings wait for their body. -/
  classes : List Nat
  /-- The token before closed a parameter list. -/
  afterParameters : Bool
  deriving DecidableEq, Repr

namespace Context

def outermost : Context :=
  ⟨[], [], [], false⟩

def depth (context : Context) : Nat :=
  context.frames.length

def nested (context : Context) : Bool :=
  !context.arrows.isEmpty || context.frames.any (·.body)

end Context

/-- Words after which a round bracket does not open a parameter list. -/
def nonCallableWords : List String :=
  ["if", "for", "while", "with", "catch", "switch", "return", "typeof", "await",
    "yield", "in", "of", "new", "void", "delete", "instanceof", "case", "do", "else",
    "throw"]

/-- Whether a round bracket after these tokens, latest first, opens a parameter
list: after a name, or after the asterisk of a generator function. -/
def opensParameters : List Token → Bool
  | [] => false
  | previous :: before =>
      match previous.kind with
      | .identifier => !previous.isWordIn nonCallableWords
      | .punctuator =>
          previous.isPunctuator "*" && before.head?.any (·.isWord "function")
      | _ => false

/-- Punctuators after which the word `await` is not an operator. -/
def nonOperandPunctuators : List String :=
  [":", "=", ",", ";", ")", "]", "\x7d", "=>", ".", "?."]

/-- Whether the word `await` between two tokens is an operator: it is no
property name and an operand may follow. -/
def isOperatorBetween (previous next : Option Token) : Bool :=
  !(previous.any (·.isPunctuatorIn [".", "?."])) &&
    next.any fun token => !token.isPunctuatorIn nonOperandPunctuators

/-- Whether a token ends the concise arrow bodies begun at its depth. -/
def endsArrow (previous : Option Token) (token : Token) : Bool :=
  token.isPunctuator "," || token.isPunctuator ";" ||
    (token.startsLine && previous.any (Statement.breaksBetween · token))

namespace Context

/-- Drop the concise arrow bodies that end before a token. -/
def settle (previous : Option Token) (token : Token) (context : Context) : Context :=
  if endsArrow previous token then
    { context with arrows := context.arrows.dropWhile (· == context.depth) }
  else context

/-- Whether a curly bracket here is the body that a class heading waits for. -/
def awaitsClassBody (context : Context) : Bool :=
  context.classes.head? == some context.depth

/-- Enter a bracket after the tokens `before`, latest first. -/
def enter (before : List Token) (bracket : Bracket) (context : Context) : Context :=
  let body := bracket == .curly &&
    (before.head?.any (·.isPunctuator "=>") ||
      (context.afterParameters && before.head?.any (·.closesWith .round)) ||
      context.awaitsClassBody)
  { context with
    frames := ⟨body, bracket == .round && opensParameters before⟩ :: context.frames
    classes :=
      if bracket == .curly && context.awaitsClassBody then context.classes.tail
      else context.classes
    afterParameters := false }

/-- Leave the innermost bracket by closing one of the given kind. -/
def leave (bracket : Bracket) (context : Context) : Context :=
  let frames := context.frames.tail
  { frames
    arrows := context.arrows.dropWhile (frames.length < ·)
    classes := context.classes.filter (· ≤ frames.length)
    afterParameters := context.frames.head?.any (·.parameters) && bracket == .round }

def advance (before : List Token) (token : Token) (next : Option Token)
    (context : Context) : Context :=
  match token.opens? with
  | some bracket => context.enter before bracket
  | none =>
      match token.closes? with
      | some bracket => context.leave bracket
      | none =>
          let context := { context with afterParameters := false }
          if token.isPunctuator "=>" && !(next.any (·.opensWith .curly)) then
            { context with arrows := context.depth :: context.arrows }
          else if token.isWord "class" then
            { context with classes := context.depth :: context.classes }
          else context

end Context

/-- Whether the tokens suspend, given the tokens before them, latest first, and
what surrounds them. -/
def suspendsAfter (before : List Token) (context : Context) : List Token → Bool
  | [] => false
  | token :: rest =>
      let inner := context.settle before.head? token
      (!inner.nested &&
        ((token.isWord "await" && isOperatorBetween before.head? rest.head?) ||
          (token.kind == .template &&
            (Template.substitutions token.text).attach.any fun part =>
              suspendsAfter [] .outermost (tokenize part.1)))) ||
        suspendsAfter (token :: before) (inner.advance before token rest.head?) rest
termination_by tokens => (Token.textLength tokens, tokens.length)
decreasing_by
  · have hpart := Template.length_lt_of_mem_substitutions part.2
    have htokens := textLength_tokenize_le part.1
    apply Prod.Lex.left
    simp only [Token.textLength_cons]
    omega
  · simp only [Token.textLength_cons, List.length_cons]
    by_cases h : token.text.length = 0
    · rw [h, Nat.zero_add]
      exact Prod.Lex.right _ (Nat.lt_succ_self _)
    · apply Prod.Lex.left
      omega

def suspends (tokens : List Token) : Bool :=
  suspendsAfter [] .outermost tokens

@[simp] theorem suspendsAfter_nil (before : List Token) (context : Context) :
    suspendsAfter before context [] = false := by
  rw [suspendsAfter]

theorem suspendsAfter_cons (before : List Token) (context : Context) (token : Token)
    (rest : List Token) :
    suspendsAfter before context (token :: rest) =
      ((!(context.settle before.head? token).nested &&
        ((token.isWord "await" && isOperatorBetween before.head? rest.head?) ||
          (token.kind == .template &&
            (Template.substitutions token.text).any (suspends <| tokenize ·)))) ||
        suspendsAfter (token :: before)
          ((context.settle before.head? token).advance before token rest.head?)
          rest) := by
  rw [suspendsAfter]
  have h : ∀ parts : List (List Char),
      (parts.attach.any fun part => suspendsAfter [] .outermost (tokenize part.1)) =
        parts.any (suspends <| tokenize ·) := by
    intro parts
    rw [← List.attach_map_subtype_val parts, List.any_map]
    simp [suspends, Function.comp_def]
  rw [h]

end ScriptConsole.Suspension

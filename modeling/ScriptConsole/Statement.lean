import ScriptConsole.Statement.Break

/-!
# Statements

A run of tokens is cut into statements without losing a token: a statement owns
its tokens and, if it has one, its closing semicolon, and a semicolon that
stands alone is an empty statement.
-/

namespace ScriptConsole

namespace Statement

inductive Kind where
  /-- A semicolon that stands alone. -/
  | empty
  /-- `var`, `let` or `const`. -/
  | declaration
  /-- A named function, asynchronous or a generator as may be. -/
  | namedFunction
  /-- A named class. -/
  | namedClass
  /-- What ends with a block: `if`, `for`, `try`, labels, bare blocks. -/
  | block
  /-- `do ... while (...)`. -/
  | doWhile
  | expression
  /-- A statement of any other keyword. -/
  | other
  deriving DecidableEq, Repr, Inhabited

namespace Kind

/-- Whether a closing curly bracket ends such a statement. -/
def endsWithBlock : Kind → Bool
  | namedFunction | namedClass | block | doWhile => true
  | _ => false

end Kind

end Statement

structure Statement where
  kind : Statement.Kind
  tokens : List Token
  semicolon : Option Token
  deriving DecidableEq, Repr, Inhabited

namespace Statement

/-- The tokens of a statement with its closing semicolon. -/
def allTokens (statement : Statement) : List Token :=
  statement.tokens ++ statement.semicolon.toList

def tokensOf (statements : List Statement) : List Token :=
  statements.flatMap allTokens

/-- Keywords whose round brackets are followed by a body. -/
def headerWords : List String :=
  ["if", "for", "while", "with", "catch", "switch"]

/-- Keywords of statements that end with a block. -/
def blockWords : List String :=
  ["class", "if", "for", "while", "try", "switch", "with"]

def otherWords : List String :=
  ["return", "throw", "break", "continue", "debugger", "import", "export"]

/-- Whether a name follows the word `function`, after an asterisk as may be. -/
def namesFunction : List Token → Bool
  | [] => false
  | token :: rest =>
      if token.isPunctuator "*" then rest.head?.any (·.isIdentifier)
      else token.isIdentifier

/-- The kind of the statement that opens with an identifier and goes on with
`rest`. -/
def kindOfWord (word : Token) (rest : List Token) : Kind :=
  if word.isWordIn ["var", "const"] then .declaration
  else if word.isWord "let" && rest.head?.any
      (fun next => next.isIdentifier || next.opensWith .curly || next.opensWith .square) then
    .declaration
  else if word.isWord "function" then
    if namesFunction rest then .namedFunction else .block
  else if word.isWord "async" && rest.head?.any
      (fun next => next.isWord "function" && !next.startsLine) && namesFunction rest.tail then
    .namedFunction
  else if word.isWord "class" && rest.head?.any
      (fun next => next.isIdentifier && !next.isWord "extends") then
    .namedClass
  else if word.isWordIn blockWords then .block
  else if word.isWord "do" then .doWhile
  else if word.isWord "import" && rest.head?.any
      (fun next => next.opensWith .round || next.isPunctuator ".") then
    .expression
  else if word.isWordIn otherWords then .other
  else if rest.head?.any (·.isPunctuator ":") then .block
  else .expression

/-- The kind of the statement that opens with `token` and goes on with `rest`. -/
def kindOf (token : Token) (rest : List Token) : Kind :=
  if token.opensWith .curly then .block
  else if token.isIdentifier then kindOfWord token rest
  else .expression

/-- Whether a round bracket after these tokens, latest first, opens the header
of a control statement. -/
def opensHeader : List Token → Bool
  | [] => false
  | previous :: before =>
      previous.isWordIn headerWords ||
        (previous.isWord "await" && before.head?.any (·.isWord "for"))

/-- Whether a statement goes on with `next` after a closing curly bracket. -/
def continuesAfterBlock (kind : Kind) (next : Option Token) : Bool :=
  match kind with
  | .doWhile => next.any (·.isWord "while")
  | .block => next.any (·.isWordIn ["else", "catch", "finally"])
  | _ => false

/-- A statement that has begun, its tokens latest first. -/
structure Draft where
  kind : Kind
  reversed : List Token
  deriving DecidableEq, Repr

namespace Draft

def close (draft : Draft) (semicolon : Option Token) : Statement :=
  ⟨draft.kind, draft.reversed.reverse, semicolon⟩

def push (draft : Draft) (token : Token) : Draft :=
  { draft with reversed := token :: draft.reversed }

end Draft

/-- Where the cut of a run of tokens stands. -/
structure Cutter where
  draft : Option Draft
  depth : Nat
  /-- A control header has opened and not closed. -/
  headerOpen : Bool
  /-- The token before closed a control header. -/
  afterHeader : Bool
  deriving DecidableEq, Repr

namespace Cutter

def initial : Cutter :=
  ⟨none, 0, false, false⟩

/-- Whether a statement that has begun ends at the line break before `token`. -/
def endsBefore (cutter : Cutter) (previous : Option Token) (token : Token)
    (draft : Draft) : Bool :=
  cutter.depth == 0 && token.startsLine && !cutter.afterHeader &&
    !(draft.kind == .doWhile && token.isWord "while") &&
    previous.any (breaksBetween · token)

/-- The statement that ends at the line break before `token`, if one does. -/
def ended? (cutter : Cutter) (previous : Option Token) (token : Token) :
    Option Statement :=
  match cutter.draft with
  | some draft =>
      if cutter.endsBefore previous token draft then some (draft.close none) else none
  | none => none

/-- The statement that goes on with `token`, if one does. -/
def continued? (cutter : Cutter) (previous : Option Token) (token : Token) :
    Option Draft :=
  match cutter.draft with
  | some draft => if cutter.endsBefore previous token draft then none else some draft
  | none => none

def add (cutter : Cutter) (before : List Token) (token : Token) (next : Option Token)
    (draft : Draft) : Option Statement × Cutter :=
  let draft' := draft.push token
  match token.opens? with
  | some bracket =>
      let header := cutter.depth == 0 && bracket == .round && opensHeader before
      (none, ⟨some draft', cutter.depth + 1, cutter.headerOpen || header, false⟩)
  | none =>
      match token.closes? with
      | some bracket =>
          let depth := cutter.depth - 1
          if depth = 0 then
            let header := bracket == .round && cutter.headerOpen
            let headerOpen := cutter.headerOpen && !header
            if bracket == .curly && draft.kind.endsWithBlock &&
                !continuesAfterBlock draft.kind next then
              (some (draft'.close none), ⟨none, 0, headerOpen, header⟩)
            else (none, ⟨some draft', 0, headerOpen, header⟩)
          else (none, ⟨some draft', depth, cutter.headerOpen, false⟩)
      | none =>
          if cutter.depth == 0 && token.isPunctuator ";" &&
              !(next.any (·.isWord "else")) then
            (some (draft.close (some token)), ⟨none, 0, cutter.headerOpen, false⟩)
          else (none, ⟨some draft', cutter.depth, cutter.headerOpen, false⟩)

end Cutter

/-- Cut the tokens that follow `before`, latest first. -/
def cutFrom (before : List Token) (cutter : Cutter) : List Token → List Statement
  | [] => (cutter.draft.map (·.close none)).toList
  | token :: rest =>
      let ended := cutter.ended? before.head? token
      match cutter.continued? before.head? token with
      | none =>
          if cutter.depth == 0 && token.isPunctuator ";" then
            ended.toList ++ ⟨.empty, [], some token⟩ ::
              cutFrom (token :: before) ⟨none, 0, cutter.headerOpen, false⟩ rest
          else
            let (statement, cutter) :=
              cutter.add before token rest.head? ⟨kindOf token rest, []⟩
            ended.toList ++ statement.toList ++ cutFrom (token :: before) cutter rest
      | some draft =>
          let (statement, cutter) := cutter.add before token rest.head? draft
          statement.toList ++ cutFrom (token :: before) cutter rest

def split (tokens : List Token) : List Statement :=
  cutFrom [] .initial tokens

/-- The tokens of a statement that has begun. -/
def Draft.tokensOf (draft : Option Draft) : List Token :=
  (draft.map (·.reversed.reverse)).toList.flatten

theorem Cutter.tokensOf_add (cutter : Cutter) (before : List Token) (token : Token)
    (next : Option Token) (draft : Draft) :
    tokensOf (cutter.add before token next draft).1.toList ++
        Draft.tokensOf (cutter.add before token next draft).2.draft =
      draft.reversed.reverse ++ [token] := by
  unfold Cutter.add
  cases token.opens? with
  | some bracket => simp [tokensOf, Draft.tokensOf, Draft.push]
  | none =>
      cases token.closes? with
      | some bracket =>
          by_cases hd : cutter.depth - 1 = 0
          · simp only [hd, if_true]
            split <;> simp [tokensOf, Draft.tokensOf, Draft.close, Draft.push, allTokens]
          · simp [hd, tokensOf, Draft.tokensOf, Draft.push]
      | none =>
          dsimp only
          split <;> simp [tokensOf, Draft.tokensOf, Draft.close, Draft.push, allTokens]

theorem tokensOf_cutFrom (before : List Token) (cutter : Cutter) (tokens : List Token) :
    tokensOf (cutFrom before cutter tokens) = Draft.tokensOf cutter.draft ++ tokens := by
  induction tokens generalizing before cutter with
  | nil =>
      cases h : cutter.draft <;>
        simp [cutFrom, h, tokensOf, Draft.tokensOf, Draft.close, allTokens]
  | cons token rest ih =>
      have happend : ∀ left right : List Statement,
          tokensOf (left ++ right) = tokensOf left ++ tokensOf right := by
        intro left right
        simp [tokensOf]
      have hended : cutter.continued? before.head? token = none →
          tokensOf (cutter.ended? before.head? token).toList =
            Draft.tokensOf cutter.draft := by
        unfold Cutter.continued? Cutter.ended?
        intro h
        split at h
        · rename_i draft hd
          split at h
          · rename_i he
            simp [hd, he, tokensOf, Draft.tokensOf, Draft.close, allTokens]
          · simp at h
        · rename_i hd
          simp [hd, tokensOf, Draft.tokensOf]
      rw [cutFrom]
      split
      · rename_i hc
        split
        · rw [happend, hended hc]
          have hcons : ∀ (s : Statement) (ss : List Statement),
              tokensOf (s :: ss) = s.allTokens ++ tokensOf ss := by
            intro s ss
            simp [tokensOf]
          rw [hcons, ih]
          simp [allTokens, Draft.tokensOf]
        · have hadd := cutter.tokensOf_add before token rest.head?
            ⟨kindOf token rest, []⟩
          simp only [happend, ih, hended hc, List.append_assoc]
          rw [← List.append_assoc (tokensOf _) _ rest, hadd]
          simp
      · rename_i draft hc
        have hd : cutter.draft = some draft := by
          unfold Cutter.continued? at hc
          split at hc
          · split at hc
            · simp at hc
            · rename_i hd _
              rw [hd, hc]
          · simp at hc
        have hadd := cutter.tokensOf_add before token rest.head? draft
        simp only [happend, ih]
        rw [← List.append_assoc, hadd]
        simp [hd, Draft.tokensOf]

/-- The statements of a run of tokens own each of its tokens once, in order. -/
theorem tokensOf_split (tokens : List Token) : tokensOf (split tokens) = tokens := by
  simp [split, tokensOf_cutFrom, Cutter.initial, Draft.tokensOf]

end Statement

end ScriptConsole

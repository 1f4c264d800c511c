import ScriptConsole.Declaration
import ScriptConsole.Statement
import ScriptConsole.Suspension

/-!
# Wrapping suspending sources

A source that suspends is put into an asynchronous arrow function that is called
at once.  The names it declares are hoisted into a `var` list before the call,
so that they outlive it, and the value of a last expression statement is
returned.  All other text, comments included, stays as it is.
-/

namespace ScriptConsole.AsyncWrap

/-- The new text of a statement, and whether it needs a semicolon. -/
structure Rendering where
  text : List Char
  needsSemicolon : Bool
  deriving DecidableEq, Repr

/-- A declaration becomes the assignments of its initializers. -/
def renderDeclaration (tokens : List Token) : Rendering :=
  match Declaration.ofTokens? tokens with
  | none => ⟨Token.textOf tokens, false⟩
  | some ⟨_, []⟩ => ⟨[], false⟩
  | some ⟨_, assignments⟩ =>
      ⟨"void (".toList ++
        List.intercalate ", ".toList (assignments.map Assignment.render) ++ [')'], true⟩

/-- A function or class becomes an assignment to its name. -/
def renderNamed (tokens : List Token) : Rendering :=
  match Declaration.declaredName? tokens with
  | none => ⟨Token.textOf tokens, false⟩
  | some name => ⟨name ++ " = ".toList ++ Token.textOf tokens, true⟩

/-- The new text of a statement, which may be the last. -/
def render (isLast : Bool) (statement : Statement) : Rendering :=
  match statement.kind with
  | .declaration => renderDeclaration statement.tokens
  | .namedFunction | .namedClass => renderNamed statement.tokens
  | .expression =>
      if isLast then
        ⟨"return (".toList ++ Token.textOf statement.tokens ++ [')'], true⟩
      else ⟨Token.textOf statement.tokens, true⟩
  | .empty | .block | .doWhile | .other => ⟨Token.textOf statement.tokens, false⟩

/-- The end of a statement: its own semicolon, or a new one if it needs one. -/
def terminator (semicolon : Option Token) (needsSemicolon : Bool) : List Char :=
  match semicolon with
  | some token => token.source
  | none => if needsSemicolon then [';'] else []

def renderWithGap (isLast : Bool) (statement : Statement) : List Char :=
  Token.gapOf statement.tokens ++ (render isLast statement).text ++
    terminator statement.semicolon (render isLast statement).needsSemicolon

/-- The new text of a run of statements; the last one is the last that is not
empty. -/
def renderAll : List Statement → List Char
  | [] => []
  | statement :: rest =>
      renderWithGap (rest.all (·.kind == .empty)) statement ++ renderAll rest

def declaredNames (statement : Statement) : List (List Char) :=
  match statement.kind with
  | .declaration => ((Declaration.ofTokens? statement.tokens).map (·.names)).getD []
  | .namedFunction | .namedClass => (Declaration.declaredName? statement.tokens).toList
  | _ => []

/-- Add a name at the end of a list that does not hold it. -/
def pushUnique (names : List (List Char)) (name : List Char) : List (List Char) :=
  if name ∈ names then names else names ++ [name]

theorem pushUnique_nodup {names : List (List Char)} (h : names.Nodup)
    (name : List Char) : (pushUnique names name).Nodup := by
  unfold pushUnique
  split
  · exact h
  · rename_i hn
    rw [List.nodup_append]
    refine ⟨h, by simp, ?_⟩
    intro a ha b hb hab
    simp only [List.mem_singleton] at hb
    exact hn (hb ▸ hab ▸ ha)

/-- The names that a run of statements declares, each where it comes first. -/
def hoisted (statements : List Statement) : List (List Char) :=
  (statements.flatMap declaredNames).foldl pushUnique []

theorem foldl_pushUnique_nodup (names more : List (List Char)) (h : names.Nodup) :
    (more.foldl pushUnique names).Nodup := by
  induction more generalizing names with
  | nil => exact h
  | cons name more ih => exact ih _ (pushUnique_nodup h name)

theorem hoisted_nodup (statements : List Statement) : (hoisted statements).Nodup :=
  foldl_pushUnique_nodup [] _ List.nodup_nil

def hoistedList : List (List Char) → List Char
  | [] => []
  | names => "var ".toList ++ List.intercalate ", ".toList names ++ "; ".toList

def wrap (scan : Scan) : List Char :=
  let statements := Statement.split scan.tokens
  hoistedList (hoisted statements) ++ "(async () => \x7b ".toList ++
    renderAll statements ++ scan.trailing ++ "\n \x7d)()".toList

/-- Wrap a source that suspends; none if it does not. -/
def wrap? (source : List Char) : Option (List Char) :=
  let scan := Scan.ofSource source
  if Suspension.suspends scan.tokens then some (wrap scan) else none

end ScriptConsole.AsyncWrap

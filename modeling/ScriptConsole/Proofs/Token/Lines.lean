import ScriptConsole.Proofs.Token.Runs

/-!
# Tokens on lines of their own

Where a token ends is settled by its own text and by the token before it.  The
texts of the tokens of a source, one on each line, are scanned as the same
tokens again, whatever gaps stood between them.
-/

namespace ScriptConsole

open Token

/-- The texts of a run of tokens, each on a line of its own. -/
def lineByLine (tokens : List Token) : List Char :=
  List.intercalate ['\n'] (tokens.map text)

/-- What follows a text that has these tokens on the lines below it. -/
def lineEnd : List Token → List Char
  | [] => []
  | token :: tokens => '\n' :: lineByLine (token :: tokens)

theorem lineByLine_cons (token : Token) (tokens : List Token) :
    lineByLine (token :: tokens) = token.text ++ lineEnd tokens := by
  cases tokens <;> simp [lineByLine, lineEnd, List.intercalate_cons_cons]

theorem alike_lineEnd (rest : List Char) (tokens : List Token) : Alike rest (lineEnd tokens) := by
  cases tokens with
  | nil => exact .stop rest
  | cons token tokens => exact .barrier (by decide) rest _

theorem Scan.bareAfter_lineEnd (previous : Option Token) (tokens : List Token) :
    bareAfter previous (lineEnd tokens) = bareAfter previous (lineByLine tokens) := by
  cases tokens with
  | nil => rfl
  | cons token tokens =>
      have line : Trivia.Whole ['\n'] := fun _ => rfl
      exact bareAfter_append_of_whole line previous _

namespace Lexeme

/-- A slash that could open a regular expression and opens none is read on its own. -/
theorem read_slash_lineEnd {previous : Option Token} (allows : allowsRegex previous = true)
    (tokens : List Token) :
    read previous '/' (lineEnd tokens) = ⟨.punctuator, [], lineEnd tokens⟩ := by
  have noName : opensIdentifier '/' (lineEnd tokens) = false := rfl
  have noNumber : opensNumber '/' (lineEnd tokens) = false := rfl
  have noBody : regexMore? (lineEnd tokens) = none := by cases tokens <;> rfl
  rw [read, noName, noNumber, allows, noBody]
  rfl

/-- A token that is no open literal is read the same at the end of a line. -/
theorem read_append_lineEnd {previous previous' : Option Token} {c : Char} {kind : TokenKind}
    {more rest : List Char} (read : read previous c (more ++ rest) = ⟨kind, more, rest⟩)
    (closed : rest = [] → isOpenLiteral kind (c :: more) = false)
    (same : allowsRegex previous' = allowsRegex previous) (tokens : List Token) :
    Lexeme.read previous' c (more ++ lineEnd tokens) = ⟨kind, more, lineEnd tokens⟩ := by
  by_cases slash : c = '/' ∧ kind = .punctuator ∧ allowsRegex previous = true
  · obtain ⟨rfl, rfl, allows⟩ := slash
    obtain rfl : more = [] := by
      cases Reads.of_read read with
      | slash opens allows noBody alone => exact alone
      | mark noRegex mark => exact absurd ⟨rfl, allows⟩ noRegex
    exact read_slash_lineEnd (same.trans allows) tokens
  · refine read_append_of_alike read (alike_lineEnd rest tokens) closed (fun _ => same) ?_
    exact fun opens mark => Bool.eq_false_iff.2 fun allows => slash ⟨opens, mark, allows⟩

end Lexeme

/-- A run of tokens up to the end of its source is scanned again line by line. -/
theorem Scanned.bareAfter_lineByLine {previous previous' : Option Token} {tokens : List Token}
    {rest : List Char} (scanned : Scanned previous tokens rest)
    (same : Lexeme.allowsRegex previous' = Lexeme.allowsRegex previous) :
    Scan.bareAfter previous' (lineByLine tokens) = tokens.map bare := by
  induction scanned generalizing previous' with
  | nil previous rest =>
      have nothing : Trivia.split .between (lineByLine []) = ([], []) := rfl
      rw [Scan.bareAfter, Scan.after_of_split_eq_nil (by rw [nothing])]
  | @cons previous kind gap more rest c tokens split read tail ih =>
      have read' : Lexeme.read previous' c (more ++ lineEnd tokens) =
          ⟨kind, more, lineEnd tokens⟩ := by
        by_cases opened : Lexeme.isOpenLiteral kind (c :: more) = true
        · -- An open literal takes the rest of its source, so that nothing is below it.
          obtain ⟨-, nothing, -⟩ := Lexeme.read_append_of_isOpenLiteral read opened
          obtain ⟨none, -⟩ := List.append_eq_nil_iff.1 nothing
          obtain rfl := (sourceOf_eq_nil_iff_of_scanned tail).1 none
          rw [nothing] at read
          rw [Lexeme.read_congr same]
          exact read
        · exact Lexeme.read_append_lineEnd read (fun _ => Bool.eq_false_iff.2 opened) same tokens
      have visible := next?_append_of_alike (Trivia.next?_eq_none_after_split split)
        (alike_lineEnd (sourceOf tokens ++ rest) tokens)
      have line := Scan.bareAfter_of_split (Trivia.split_cons_of_next?_eq_none visible) previous'
        read'
      have below := @ih (some ⟨kind, [], c :: more⟩) rfl
      rw [lineByLine_cons, List.cons_append, line, Scan.bareAfter_lineEnd, below]
      rfl

/-- The tokens of a source, one on each line, are scanned as the same tokens. -/
theorem map_bare_tokenize_lineByLine (source : List Char) :
    (tokenize (lineByLine (tokenize source))).map bare = (tokenize source).map bare :=
  (scanned_tokenize source).bareAfter_lineByLine rfl

end ScriptConsole

import ScriptConsole.Token.Lexeme

/-!
# Scanning

A source is a run of tokens, each with the gap before it, and one more gap.
Spelling them in order gives the source back.
-/

namespace ScriptConsole

/-- The tokens of a source and the gap after the last of them. -/
structure Scan where
  tokens : List Token
  trailing : List Char
  deriving DecidableEq, Repr

namespace Scan

/-- Scan a source after the token `previous`. -/
def after (previous : Option Token) (cs : List Char) : Scan :=
  match _h : (Trivia.split .between cs).2 with
  | [] => ⟨[], (Trivia.split .between cs).1⟩
  | c :: rest =>
      let lexeme := Lexeme.read previous c rest
      let token : Token :=
        ⟨lexeme.kind, (Trivia.split .between cs).1, c :: lexeme.more⟩
      let scan := after (some token) lexeme.rest
      { scan with tokens := token :: scan.tokens }
termination_by cs.length
decreasing_by
  have hrest := Lexeme.read_rest_length_le previous c rest
  have hgap := Trivia.split_rest_length_le .between cs
  rw [_h, List.length_cons] at hgap
  omega

def ofSource (cs : List Char) : Scan :=
  after none cs

def source (scan : Scan) : List Char :=
  Token.sourceOf scan.tokens ++ scan.trailing

@[simp] theorem source_after (previous : Option Token) (cs : List Char) :
    (after previous cs).source = cs := by
  fun_induction after previous cs with
  | case1 previous cs h =>
      have e := Trivia.split_append .between cs
      simpa [source, h] using e
  | case2 previous cs c rest h lexeme token scan ih =>
      have e := Trivia.split_append .between cs
      rw [h] at e
      have ih : Token.sourceOf scan.tokens ++ scan.trailing = lexeme.rest := ih
      simp only [source, Token.sourceOf_cons, List.append_assoc, ih]
      simpa [token, lexeme] using e

@[simp] theorem source_ofSource (cs : List Char) : (ofSource cs).source = cs :=
  source_after none cs

end Scan

def tokenize (cs : List Char) : List Token :=
  (Scan.ofSource cs).tokens

theorem textLength_le_sourceOf_length (tokens : List Token) :
    Token.textLength tokens ≤ (Token.sourceOf tokens).length := by
  induction tokens with
  | nil => simp
  | cons token tokens ih => simp; omega

theorem textLength_tokenize_le (cs : List Char) :
    Token.textLength (tokenize cs) ≤ cs.length := by
  have h := textLength_le_sourceOf_length (tokenize cs)
  have e := congrArg List.length (Scan.source_ofSource cs)
  simp only [Scan.source, List.length_append] at e
  unfold tokenize at *
  omega

end ScriptConsole

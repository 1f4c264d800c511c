import ScriptConsole.Proofs.Completeness.Literals
import ScriptConsole.Proofs.Token.Texts

/-!
# Complete code in a template

A source is read token by token, the code of a substitution character by character:
by its braces, its quotes and its nested templates.  The two find the same closing
brace for a complete source unless one of its comments or regular expressions holds
such a character.  In that case the substitution can end too early, or take in the
rest of its template.
-/

namespace ScriptConsole

open Nested (Code Inside codeMarks)

namespace Lexeme

theorem isLiteral_of_mem_literalMarks {c : Char} (mark : c ∈ literalMarks)
    (previous : Option Token) (cs : List Char) : (read previous c cs).kind.isLiteral = true := by
  simp only [literalMarks, List.mem_cons, List.not_mem_nil, or_false] at mark
  rcases mark with rfl | rfl | rfl <;> rfl

theorem endsToken_of_mem_codeMarks {c : Char} (mark : c ∈ codeMarks) : EndsToken c := by
  have noName : ∀ c ∈ codeMarks, Text.isIdentContinue c = false := forall_mem_of_all (by decide)
  have noNumber : ∀ c ∈ codeMarks, ∀ exponent : Bool, continuesNumber exponent c = false :=
    forall_mem_of_all (by decide)
  have noMark : ∀ c ∈ codeMarks, ∀ mark ∈ punctuators, c ∉ mark.toList.tail :=
    forall_mem_of_all (by decide)
  exact ⟨noName c mark, noNumber c mark, noMark c mark⟩

/-- A token that is no literal and no brace is code without braces and literals. -/
theorem code_of_read_of_not_isLiteral {previous : Option Token} {c : Char} {kind : TokenKind}
    {cs more rest : List Char} (h : read previous c cs = ⟨kind, more, rest⟩)
    (plain : kind.isLiteral = false) (noBrace : c ≠ '{' ∧ c ≠ '}') : Code (c :: more) := by
  apply Nested.code_of_not_mem
  rw [List.forall_mem_cons]
  refine ⟨fun mark => ?_, fun d mem mark =>
    not_endsToken_of_read h plain d mem (endsToken_of_mem_codeMarks mark)⟩
  have noLiteral : c ∉ literalMarks := fun mark => by
    have literal := isLiteral_of_mem_literalMarks mark previous cs
    rw [h, plain] at literal
    cases literal
  have parts : codeMarks = ['{', '}'] ++ literalMarks := rfl
  rw [parts, List.mem_append] at mark
  exact mark.elim (by simpa using noBrace) noLiteral

/-- The text of a token is code, if it is not a brace, a regular expression or an open
literal. -/
theorem code_of_read {previous : Option Token} {c : Char} {kind : TokenKind}
    {more rest : List Char} (h : read previous c (more ++ rest) = ⟨kind, more, rest⟩)
    (noRegex : kind ≠ .regex) (closed : isOpenLiteral kind (c :: more) = false)
    (noBrace : c ≠ '{' ∧ c ≠ '}') : Code (c :: more) := by
  cases Reads.of_read h with
  | quoted =>
      obtain ⟨mark, body, last, within, ends, rfl⟩ := exists_quoted_of_read h closed
      exact .quoted mark within ends .nil
  | template =>
      obtain ⟨rfl, inside, within, rfl⟩ := exists_inside_of_read h closed
      exact .template within .nil
  | regex => exact absurd rfl noRegex
  | name => exact code_of_read_of_not_isLiteral h rfl noBrace
  | number => exact code_of_read_of_not_isLiteral h rfl noBrace
  | slash => exact code_of_read_of_not_isLiteral h rfl noBrace
  | mark => exact code_of_read_of_not_isLiteral h rfl noBrace

end Lexeme

namespace Token

theorem code_group (bracket : Bracket) {inner cs : List Char} (within : Code inner)
    (more : Code cs) : Code (bracket.opening :: (inner ++ bracket.closing :: cs)) := by
  cases bracket with
  | round => exact .plain (by decide) (within.append (.plain (by decide) more))
  | square => exact .plain (by decide) (within.append (.plain (by decide) more))
  | curly => exact .braces within more

/-- Well nested tokens are code if all between their brackets is. -/
theorem code_sourceOf {tokens : List Token} (nested : WellNested tokens)
    (gaps : ∀ token ∈ tokens, Code token.gap)
    (texts : ∀ token ∈ tokens, token.opens? = none → token.closes? = none → Code token.text) :
    Code (sourceOf tokens) := by
  induction nested with
  | nil => exact .nil
  | @plain token rest opens closes tail ih =>
      rw [List.forall_mem_cons] at gaps texts
      rw [sourceOf_cons]
      exact (gaps.1.append (texts.1 opens closes)).append (ih gaps.2 texts.2)
  | @group opening closing inner rest bracket opens closes within tail ihWithin ihTail =>
      simp only [List.forall_mem_cons, List.forall_mem_append] at gaps texts
      have whole : sourceOf (opening :: (inner ++ closing :: rest)) = opening.gap ++
          bracket.opening :: (sourceOf inner ++ closing.gap ++ bracket.closing :: sourceOf rest) := by
        simp [(opens?_eq_some_iff.1 opens).2, (closes?_eq_some_iff.1 closes).2]
      rw [whole]
      exact gaps.1.append (code_group bracket
        ((ihWithin gaps.2.1 texts.2.1).append gaps.2.2.1) (ihTail gaps.2.2.2 texts.2.2.2))

end Token

namespace Template

/-- A template of one substitution and no more. -/
def ofCode (code : List Char) : List Char :=
  '\x60' :: '$' :: '{' :: (code ++ ['}', '\x60'])

theorem substitutions_ofCode (source : List Char) :
    substitutions (ofCode source) =
      code (source ++ ['}', '\x60']) :: substitutionsFrom (afterCode (source ++ ['}', '\x60'])) :=
  substitutionsFrom_of_substitution
    (by simp [chunk] : chunk ('$' :: '{' :: (source ++ ['}', '\x60'])) = ([], _))

theorem tokenize_of_rest_eq_nil {more : List Char}
    (all : (Nested.read [.template] more).rest = []) :
    tokenize ('\x60' :: more) = [⟨.template, [], '\x60' :: more⟩] := by
  have text : (Nested.read [.template] more).text = more := by
    have whole := Nested.read_text_append_rest [.template] more
    rwa [all, List.append_nil] at whole
  have read : Lexeme.read none '\x60' more = ⟨.template, more, []⟩ := by
    have mark : Lexeme.read none '\x60' more = ⟨.template, (Nested.read [.template] more).text,
      (Nested.read [.template] more).rest⟩ := rfl
    rw [mark, text, all]
  have split : Trivia.split .between ('\x60' :: more) = ([], '\x60' :: more) := rfl
  have ended (last : Token) : Scan.after (some last) [] = ⟨[], []⟩ :=
    Scan.after_of_split_eq_nil rfl _
  rw [tokenize, Scan.ofSource, Scan.after_of_split_eq_cons split none read, ended]

theorem rest_read_ofCode {source : List Char} (within : Code source) :
    (Nested.read [.template] ('$' :: '{' :: (source ++ ['}', '\x60']))).rest = [] := by
  have inside : Inside ('$' :: '{' :: (source ++ '}' :: [])) := .substitution within .nil
  have read := inside.read_eq []
  simp only [List.cons_append, List.append_assoc, List.nil_append] at read
  rw [read]

theorem substitutions_ofCode_of_code {source : List Char} (within : Code source) :
    substitutions (ofCode source) = [source] := by
  have mark : substitutionsFrom ['\x60'] = [] := substitutionsFrom_of_end rfl (by decide)
  rw [substitutions_ofCode, (code_append within ['\x60']).1, (code_append within ['\x60']).2, mark]

/-- What is found in place of a substitution whose own brace does not close it: code that ends
at a brace within, or the rest of the template. -/
theorem substitutions_ofCode_of_not_code {source : List Char} (wrong : ¬Code source) :
    (∃ inner rest others, Code inner ∧ source = inner ++ '}' :: rest ∧
      substitutions (ofCode source) = inner :: others) ∨
    (tokenize (ofCode source) = [⟨.template, [], ofCode source⟩] ∧
      Lexeme.isOpenLiteral .template (ofCode source) = true ∧
      substitutions (ofCode source) = [source ++ ['}', '\x60']]) := by
  by_cases closed : (Nested.read [.code] (source ++ ['}', '\x60'])).closed = true
  · obtain ⟨inner, after, within, whole⟩ := Nested.closed_code_iff.1 closed
    refine .inl ⟨inner, ?_⟩
    rw [substitutions_ofCode, whole, (code_append within after).1]
    -- The brace that closes it is the last one of the template only if the source is code.
    rcases List.append_eq_append_iff.1 whole with ⟨middle, rfl, ends⟩ | ⟨middle, rfl, ends⟩
    · rcases middle with _ | ⟨first, _ | ⟨second, middle⟩⟩
      · exact absurd (by simpa using within) wrong
      · simp at ends
      · simp at ends
    · rcases middle with _ | ⟨first, middle⟩
      · exact absurd (by simpa using within) wrong
      · obtain rfl : '}' = first := (List.cons.inj ends).1
        exact ⟨middle, _, within, rfl, rfl⟩
  · have unclosed : Unclosed (source ++ ['}', '\x60']) :=
      unclosed_iff.2 (Bool.eq_false_iff.2 closed)
    have read := read_substitution_of_unclosed unclosed
    have nothing : substitutionsFrom [] = [] := substitutionsFrom_of_end rfl (by simp)
    refine .inr ⟨tokenize_of_rest_eq_nil (by rw [read]), ?_, ?_⟩
    · rw [ofCode, Lexeme.isOpenLiteral, read]
      rfl
    · rw [substitutions_ofCode, (code_of_unclosed unclosed).1, (code_of_unclosed unclosed).2,
        nothing]

end Template

namespace Completeness

open Template (ofCode substitutions)

/-- Of a complete source that a brace can follow, only comments and regular expressions can fail
to be code. -/
theorem code_of_check {source gap : List Char} (complete : check source = none)
    (closes : tokenize (source ++ ['}']) = tokenize source ++ [⟨.punctuator, gap, ['}']⟩])
    (pieces : ∀ token ∈ tokenize source,
      Code token.gap ∧ (token.kind = .regex → Code token.text))
    (trailing : Code (Scan.ofSource source).trailing) : Code source := by
  have nested : Token.WellNested (tokenize source) :=
    (Token.wellNested_iff _).2 (checkWithin_eq_none_iff.1 complete).2
  have whole := Scan.source_ofSource source
  rw [← whole]
  refine (Token.code_sourceOf nested (fun token mem => (pieces token mem).1) ?_).append trailing
  intro token mem noOpening noClosing
  by_cases regex : token.kind = .regex
  · exact (pieces token mem).2 regex
  -- a token that others follow is no open literal
  have closed : Lexeme.isOpenLiteral token.kind token.text = false := by
    refine (scanned_tokenize (source ++ ['}'])).isOpenLiteral_of_mem_dropLast ?_
    rw [closes, List.dropLast_concat]
    exact mem
  obtain ⟨previous, c, more, rest, text, read⟩ := (scanned_tokenize source).exists_read mem
  have alone : c ∈ Lexeme.loneMarks → token.kind = .punctuator ∧ token.text = [c] := by
    intro lone
    rw [Lexeme.read_of_mem_loneMarks lone, Lexeme.mk.injEq] at read
    rw [text]
    exact ⟨read.1.symm, by rw [read.2.1]⟩
  rw [text] at closed ⊢
  refine Lexeme.code_of_read read regex closed ⟨?_, ?_⟩
  · rintro rfl
    have opens : token.opens? = some .curly := Token.opens?_eq_some_iff.2 (alone (by decide))
    rw [opens] at noOpening
    cases noOpening
  · rintro rfl
    have closes : token.closes? = some .curly := Token.closes?_eq_some_iff.2 (alone (by decide))
    rw [closes] at noClosing
    cases noClosing

/-- When a complete source that a brace can follow is found again in a template: exactly when its
braces, quotes and templates pair up with comments and regular expressions read like other code.
They do if each comment and regular expression does.  Otherwise the substitution ends at an
earlier brace, or takes in the end of its template. -/
theorem substitutions_ofCode_iff_code {source gap : List Char} (complete : check source = none)
    (closes : tokenize (source ++ ['}']) = tokenize source ++ [⟨.punctuator, gap, ['}']⟩]) :
    (tokenize (ofCode source) = [⟨.template, [], ofCode source⟩] ∧
      substitutions (ofCode source) = [source] ↔ Code source) ∧
    ((∀ token ∈ tokenize source, Code token.gap ∧ (token.kind = .regex → Code token.text)) →
      Code (Scan.ofSource source).trailing → Code source) ∧
    (¬Code source →
      (∃ inner rest others, Code inner ∧ source = inner ++ '}' :: rest ∧
        substitutions (ofCode source) = inner :: others) ∨
      (tokenize (ofCode source) = [⟨.template, [], ofCode source⟩] ∧
        Lexeme.isOpenLiteral .template (ofCode source) = true ∧
        substitutions (ofCode source) = [source ++ ['}', '\x60']])) := by
  refine ⟨⟨fun found => Classical.byContradiction fun wrong => ?_,
    fun within => ⟨?_, Template.substitutions_ofCode_of_code within⟩⟩,
    code_of_check complete closes, Template.substitutions_ofCode_of_not_code⟩
  · rcases Template.substitutions_ofCode_of_not_code wrong with
      ⟨inner, rest, others, -, whole, parts⟩ | ⟨-, -, parts⟩
    · rw [found.2, List.cons.injEq] at parts
      rw [parts.1] at whole
      simp at whole
    · rw [found.2, List.cons.injEq] at parts
      simpa using parts.1
  · exact Template.tokenize_of_rest_eq_nil (Template.rest_read_ofCode within)

/-- A brace in a string, and a regular expression and a comment without any. -/
theorem substitutions_ofCode_iff_code_string :
    let source := "['\x7d', /a/] // b\n".toList
    check source = none ∧
      tokenize (source ++ ['}']) =
        tokenize source ++ [⟨.punctuator, " // b\n".toList, ['}']⟩] ∧
      tokenize (ofCode source) = [⟨.template, [], ofCode source⟩] ∧
      substitutions (ofCode source) = [source] := by
  intro source
  let tokens : List Token :=
    [⟨.punctuator, [], ['[']⟩, ⟨.string, [], "'\x7d'".toList⟩, ⟨.punctuator, [], [',']⟩,
      ⟨.regex, [' '], "/a/".toList⟩, ⟨.punctuator, [], [']']⟩]
  have scanned : Scan.ofSource source = ⟨tokens, " // b\n".toList⟩ :=
    Scan.ofSource_of_within (by decide : Scan.within 6 none source = _)
  have followed : Scan.ofSource (source ++ ['}']) =
      ⟨tokens ++ [⟨.punctuator, " // b\n".toList, ['}']⟩], []⟩ :=
    Scan.ofSource_of_within (by decide : Scan.within 7 none (source ++ ['}']) = _)
  have complete : check source = none := by
    rw [check, tokenize, scanned]
    rfl
  have closes : tokenize (source ++ ['}']) =
      tokenize source ++ [⟨.punctuator, " // b\n".toList, ['}']⟩] := by
    rw [tokenize, tokenize, followed, scanned]
  obtain ⟨found, pieces, -⟩ := substitutions_ofCode_iff_code complete closes
  have code {cs : List Char} (plain : cs.all (fun c => decide (c ∉ codeMarks)) = true) : Code cs :=
    Nested.code_of_not_mem (forall_mem_of_all plain)
  refine ⟨complete, closes, found.2 (pieces ?_ ?_)⟩
  · have plain : ∀ token ∈ tokens, token.gap.all (fun c => decide (c ∉ codeMarks)) = true ∧
        (token.kind = .regex → token.text.all (fun c => decide (c ∉ codeMarks)) = true) := by
      decide
    rw [tokenize, scanned]
    exact fun token mem => ⟨code (plain token mem).1, fun regex => code ((plain token mem).2 regex)⟩
  · rw [scanned]
    exact code (by decide)

/-- A brace in a regular expression and one in a comment close the substitution. -/
theorem substitutions_ofCode_brace :
    (check "/\x7d/".toList = none ∧
      tokenize ("/\x7d/".toList ++ ['}']) =
        tokenize "/\x7d/".toList ++ [⟨.punctuator, [], ['}']⟩] ∧
      substitutions (ofCode "/\x7d/".toList) = [['/']]) ∧
    (check "a /*\x7d*/".toList = none ∧
      tokenize ("a /*\x7d*/".toList ++ ['}']) =
        tokenize "a /*\x7d*/".toList ++ [⟨.punctuator, " /*\x7d*/".toList, ['}']⟩] ∧
      substitutions (ofCode "a /*\x7d*/".toList) = ["a /*".toList]) := by
  have regex : Scan.ofSource "/\x7d/".toList = ⟨[⟨.regex, [], "/\x7d/".toList⟩], []⟩ :=
    Scan.ofSource_of_within (by decide : Scan.within 2 none _ = _)
  have regexFollowed : Scan.ofSource ("/\x7d/".toList ++ ['}']) =
      ⟨[⟨.regex, [], "/\x7d/".toList⟩, ⟨.punctuator, [], ['}']⟩], []⟩ :=
    Scan.ofSource_of_within (by decide : Scan.within 3 none _ = _)
  have comment : Scan.ofSource "a /*\x7d*/".toList =
      ⟨[⟨.identifier, [], ['a']⟩], " /*\x7d*/".toList⟩ :=
    Scan.ofSource_of_within (by decide : Scan.within 2 none _ = _)
  have commentFollowed : Scan.ofSource ("a /*\x7d*/".toList ++ ['}']) =
      ⟨[⟨.identifier, [], ['a']⟩, ⟨.punctuator, " /*\x7d*/".toList, ['}']⟩], []⟩ :=
    Scan.ofSource_of_within (by decide : Scan.within 3 none _ = _)
  refine ⟨⟨?_, ?_, ?_⟩, ⟨?_, ?_, ?_⟩⟩
  · rw [check, tokenize, regex]
    rfl
  · rw [tokenize, tokenize, regex, regexFollowed]
    rfl
  · rw [Template.substitutions_ofCode, Template.substitutionsFrom_of_end rfl (by decide)]
    rfl
  · rw [check, tokenize, comment]
    rfl
  · rw [tokenize, tokenize, comment, commentFollowed]
    rfl
  · rw [Template.substitutions_ofCode, Template.substitutionsFrom_of_end rfl (by decide)]
    rfl

end Completeness

end ScriptConsole

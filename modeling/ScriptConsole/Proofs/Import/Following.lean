import ScriptConsole.Proofs.Import.Joining
import ScriptConsole.Proofs.Token.Runs
import ScriptConsole.Proofs.Token.Texts

/-!
# Tokens of the code after an import

The code after an import keeps its tokens when its pieces are joined again, as
far as its semicolons are tokens.  In a string, a template or a regular
expression the blanks next to a semicolon belong to the literal; and a line
comment that loses its line break goes on over what followed it.
-/

namespace ScriptConsole

theorem Lexeme.read_slash {previous : Option Token} (allows : allowsRegex previous = true)
    (cs : List Char) :
    read previous '/' cs =
      match regexMore? cs with
      | some parts => ⟨.regex, parts.1, parts.2⟩
      | none => ⟨.punctuator, [], cs⟩ := by
  have noName : opensIdentifier '/' cs = false := rfl
  have noNumber : opensNumber '/' cs = false := rfl
  rw [read, noName, noNumber, allows]
  rfl

namespace Import

open Token

/-- Whether a token is read as it was from what is written for it and after it.  Only the
text of a literal and a slash that opened no regular expression are in question. -/
def LiteralKept (previous : Option Token) (kind : TokenKind) (text written rest : List Char) :
    Prop :=
  (kind.isLiteral = true → written = text) ∧
    (kind = .punctuator → text = ['/'] → Lexeme.allowsRegex previous = true →
      Lexeme.regexMore? rest = none)

namespace Joining

/-- Whether every gap ends before its token as it is written, too, and the last one holds
no token: no line comment loses the line break that ends it. -/
def GapsKept (trailing : List Char) (joining : Joining) : List Token → Prop
  | [] => (Trivia.split .between (joining.write [] trailing)).2 = []
  | token :: tokens =>
      let rest := sourceOf tokens ++ trailing
      let inner := joining.after (token.text ++ rest) token.gap
      Trivia.Whole (joining.write (token.text ++ rest) token.gap) ∧
        GapsKept trailing (inner.after rest token.text) tokens

/-- Whether every literal is written as it was, and every slash that opened no regular
expression opens none in what is written after it. -/
def LiteralsKept (trailing : List Char) (previous : Option Token) (joining : Joining) :
    List Token → Prop
  | [] => True
  | token :: tokens =>
      let rest := sourceOf tokens ++ trailing
      let inner := joining.after (token.text ++ rest) token.gap
      LiteralKept previous token.kind token.text (inner.write rest token.text)
          ((inner.after rest token.text).write [] rest) ∧
        LiteralsKept trailing (some token) (inner.after rest token.text) tokens

/-- A semicolon is a token of its own whatever becomes of the blanks next to it. -/
theorem bareAfter_write_semicolon (joining : Joining) (previous : Option Token)
    (rest : List Char) :
    Scan.bareAfter previous (joining.write [] (';' :: rest)) =
      ⟨.punctuator, [], [';']⟩ ::
        Scan.bareAfter (some ⟨.punctuator, [], [';']⟩)
          ((joining.after rest [';']).write [] rest) := by
  rw [write, after, after, List.append_nil, List.nil_append]
  rcases joining.step_cases ';' rest with ⟨count, copied, -⟩ | ⟨-, marked⟩ | ⟨-, other, -⟩
  · rw [copied]
    exact Scan.bareAfter_lone (by decide) previous _
  · rw [marked]
    have spaced := Scan.bareAfter_lone (c := ';') (by decide) previous
      (' ' :: opening.write [] rest)
    rwa [Scan.bareAfter_space] at spaced
  · exact absurd rfl other

theorem isBlank_eq_false_of_next? {c : Char} {ahead : Option Char}
    (visible : Trivia.Mode.next? .between c ahead = none) : Text.isBlank c = false := by
  have noSpacing := Trivia.isSpacing_eq_false_of_next? visible
  rw [Trivia.isSpacing, Bool.or_eq_false_iff] at noSpacing
  exact noSpacing.1

section Token

variable {previous : Option Token} {kind : TokenKind} {c : Char} {more rest : List Char}
  (visible : Trivia.Mode.next? .between c (more ++ rest).head? = none)
  (read : Lexeme.read previous c (more ++ rest) = ⟨kind, more, rest⟩)

include visible in
/-- The first character of a token is copied, unless it is a semicolon. -/
theorem exists_step_of_token (joining : Joining) (other : c ≠ ';') (ahead : List Char) :
    ∃ count, joining.step c ahead = ([c], copying count) :=
  joining.exists_step_of_visible ahead (isBlank_eq_false_of_next? visible) other

include visible in
/-- A token begins with its first character in what is written, too. -/
theorem bareAfter_write_token {count : Nat} {lexeme : Lexeme}
    (written : Lexeme.read previous c ((copying count).write [] (more ++ rest)) = lexeme) :
    Scan.bareAfter previous (c :: (copying count).write [] (more ++ rest)) =
      ⟨lexeme.kind, [], c :: lexeme.more⟩ ::
        Scan.bareAfter (some ⟨lexeme.kind, [], c :: lexeme.more⟩) lexeme.rest :=
  have still : Trivia.Mode.next? .between c
      ([] ++ (copying count).write [] (more ++ rest)).head? = none :=
    next?_append_of_alike visible (alike_write count (more ++ rest))
  Scan.bareAfter_of_split (Trivia.split_cons_of_next?_eq_none still) previous written

include read in
theorem write_more_of_plain (plain : kind.isLiteral = false) (joining : Joining) :
    joining.write rest more = more := by
  refine joining.write_of_visible rest fun d mem => ?_
  have noBarrier := Lexeme.not_mem_barriers_of_read read plain d mem
  refine ⟨Bool.eq_false_iff.2 fun blank => noBarrier ?_, ?_⟩
  · exact mem_barriers_of_isSpacing (by rw [Trivia.isSpacing, blank, Bool.true_or])
  · rintro rfl
    exact noBarrier (by decide)

include read in
/-- Only a literal that is open ends with a space or a semicolon. -/
theorem getLast?_ne_of_closed (closed : Lexeme.isOpenLiteral kind (c :: more) = false) :
    ∀ d ∈ more.getLast?, d ≠ ' ' ∧ d ≠ ';' := by
  intro d last
  cases literal : kind.isLiteral with
  | false =>
      have noBarrier :=
        Lexeme.not_mem_barriers_of_read read literal d (List.mem_of_getLast? last)
      constructor <;> rintro rfl <;> exact noBarrier (by decide)
  | true =>
      obtain ⟨e, last', closes⟩ := Lexeme.exists_getLast?_of_read read literal closed
      obtain rfl : d = e := Option.some.inj (last.symm.trans last')
      rcases closes with noBarrier | rfl
      · constructor <;> rintro rfl <;> exact noBarrier (by decide)
      · exact ⟨by decide, by decide⟩

include read in
/-- A token that is copied ends in what is written where it ended. -/
theorem alike_write_after {count : Nat} (copied : (copying count).write rest more = more) :
    Alike rest (((copying count).after rest more).write [] rest) := by
  cases h : (copying count).after rest more with
  | copying count' => exact alike_write count' rest
  | opening =>
      cases closed : Lexeme.isOpenLiteral kind (c :: more) with
      | true =>
          obtain ⟨-, rfl, -⟩ := Lexeme.read_append_of_isOpenLiteral read closed
          exact .stop []
      | false =>
          have last := (getLast?_write_of_opening _ _ h).resolve_left (by simp)
          rw [copied] at last
          exact absurd rfl (getLast?_ne_of_closed read closed _ last).1

/-- What is written from a token on is its first character and then its rest. -/
theorem write_token {joining : Joining} {count : Nat}
    (first : joining.step c (more ++ rest) = ([c], copying count)) :
    joining.write [] (c :: (more ++ rest)) = c :: (copying count).write [] (more ++ rest) ∧
      joining.write rest (c :: more) = c :: (copying count).write rest more ∧
      joining.after rest (c :: more) = (copying count).after rest more := by
  rw [write, write, after, List.append_nil, first]
  exact ⟨rfl, rfl, rfl⟩

/-- What is written from behind the first character of a token on. -/
theorem write_more (count : Nat) :
    (copying count).write [] (more ++ rest) =
      (copying count).write rest more ++ ((copying count).after rest more).write [] rest := by
  rw [write_append, List.append_nil]

include read visible in
theorem bareAfter_write_of_kept {joining : Joining}
    (kept : LiteralKept previous kind (c :: more) (joining.write rest (c :: more))
      ((joining.after rest (c :: more)).write [] rest)) :
    Scan.bareAfter previous (joining.write [] (c :: (more ++ rest))) =
      ⟨kind, [], c :: more⟩ ::
        Scan.bareAfter (some ⟨kind, [], c :: more⟩)
          ((joining.after rest (c :: more)).write [] rest) := by
  by_cases other : c = ';'
  · subst other
    rw [Lexeme.read_of_mem_loneMarks (by decide)] at read
    cases read
    exact bareAfter_write_semicolon joining previous _
  obtain ⟨count, first⟩ := exists_step_of_token visible joining other (more ++ rest)
  obtain ⟨whole, text, after⟩ := write_token first
  rw [text, after] at kept
  rw [whole, after]
  have copied : (copying count).write rest more = more := by
    cases literal : kind.isLiteral with
    | false => exact write_more_of_plain read literal _
    | true => exact (List.cons.inj (kept.1 literal)).2
  have alike := alike_write_after read copied
  have readAgain : Lexeme.read previous c ((copying count).write [] (more ++ rest)) =
      ⟨kind, more, ((copying count).after rest more).write [] rest⟩ := by
    rw [write_more, copied]
    cases closed : Lexeme.isOpenLiteral kind (c :: more) with
    | true =>
        obtain ⟨-, rfl, -⟩ := Lexeme.read_append_of_isOpenLiteral read closed
        exact read
    | false =>
        by_cases slash : c = '/' ∧ kind = .punctuator ∧ Lexeme.allowsRegex previous = true
        · obtain ⟨rfl, rfl, allows⟩ := slash
          rw [Lexeme.read_slash allows] at read ⊢
          split at read
          · cases read
          · obtain rfl : [] = more := congrArg Lexeme.more read
            rw [List.nil_append, kept.2 rfl rfl allows]
        · refine Lexeme.read_append_of_alike read alike (fun _ => closed) (fun _ => rfl) ?_
          intro isSlash punctuator
          exact Bool.eq_false_iff.2 fun allows => slash ⟨isSlash, punctuator, allows⟩
  exact bareAfter_write_token visible readAgain

include read visible in
theorem literalKept_of_bareAfter_write {joining : Joining} {tokens : List Token}
    (same : Scan.bareAfter previous (joining.write [] (c :: (more ++ rest))) =
      ⟨kind, [], c :: more⟩ :: tokens) :
    LiteralKept previous kind (c :: more) (joining.write rest (c :: more))
      ((joining.after rest (c :: more)).write [] rest) := by
  by_cases other : c = ';'
  · subst other
    rw [Lexeme.read_of_mem_loneMarks (by decide)] at read
    cases read
    exact ⟨by simp [TokenKind.isLiteral], by simp⟩
  obtain ⟨count, first⟩ := exists_step_of_token visible joining other (more ++ rest)
  obtain ⟨whole, text, after⟩ := write_token first
  rw [whole, bareAfter_write_token visible rfl] at same
  rw [text, after]
  have first := (List.cons.inj same).1
  rw [Token.mk.injEq, List.cons.injEq] at first
  obtain ⟨hkind, -, -, hmore⟩ := first
  have written := Lexeme.read_append previous c ((copying count).write [] (more ++ rest))
  rw [hmore] at written
  constructor
  · intro literal
    refine congrArg (c :: ·) ?_
    cases closed : Lexeme.isOpenLiteral kind (c :: more) with
    | true =>
        -- An open literal would take in whatever followed it.
        obtain ⟨-, rfl, longer⟩ := Lexeme.read_append_of_isOpenLiteral read closed
        rw [List.append_nil] at written hmore
        cases left : (Lexeme.read previous c ((copying count).write [] more)).rest with
        | nil =>
            rw [left, List.append_nil] at written
            exact written.symm
        | cons d cs =>
            obtain ⟨taken, others, -, further⟩ := longer d cs
            rw [left] at written
            rw [← written, further previous] at hmore
            have := congrArg List.length hmore
            simp at this
    | false =>
        rcases write_eq_of_append.1 (copying count) written.symm with copied | last
        · exact copied
        · exact absurd rfl (getLast?_ne_of_closed read closed _ last).2
  · intro punctuator slash allows
    obtain ⟨rfl, rfl⟩ := List.cons.inj slash
    rw [List.nil_append, Lexeme.read_slash allows] at hkind
    rw [Joining.after]
    split at hkind
    · rw [punctuator] at hkind
      cases hkind
    · assumption

end Token

/-- If the gaps are kept, then the tokens are the same if and only if each of them is
read as it was. -/
theorem bareAfter_write_iff {previous : Option Token} {tokens : List Token}
    {trailing : List Char} (scanned : Scanned previous tokens trailing) {joining : Joining}
    (gaps : joining.GapsKept trailing tokens) :
    Scan.bareAfter previous (joining.write [] (sourceOf tokens ++ trailing)) =
        tokens.map bare ↔
      joining.LiteralsKept trailing previous tokens := by
  induction scanned generalizing joining with
  | nil previous trailing =>
      refine iff_of_true ?_ trivial
      rw [sourceOf_nil, List.nil_append, Scan.bareAfter, Scan.after_of_split_eq_nil gaps,
        List.map_nil]
  | @cons previous kind gap more trailing c tokens split read tail ih =>
      obtain ⟨whole, furtherGaps⟩ := gaps
      have visible := Trivia.next?_eq_none_after_split split
      have source : sourceOf (⟨kind, gap, c :: more⟩ :: tokens) ++ trailing =
          gap ++ c :: (more ++ (sourceOf tokens ++ trailing)) := by simp
      have congr : ∀ cs, Scan.bareAfter (some ⟨kind, [], c :: more⟩) cs =
          Scan.bareAfter (some ⟨kind, gap, c :: more⟩) cs :=
        Scan.bareAfter_congr rfl
      have inner : Scan.bareAfter previous
          (joining.write [] (gap ++ c :: (more ++ (sourceOf tokens ++ trailing)))) =
            Scan.bareAfter previous
              ((joining.after (c :: (more ++ (sourceOf tokens ++ trailing))) gap).write []
                (c :: (more ++ (sourceOf tokens ++ trailing)))) := by
        rw [write_append, List.append_nil]
        exact Scan.bareAfter_append_of_whole whole previous _
      rw [source, inner]
      constructor
      · intro same
        have kept := literalKept_of_bareAfter_write visible read same
        rw [bareAfter_write_of_kept visible read kept, congr] at same
        exact ⟨kept, (ih furtherGaps).1 (List.cons.inj same).2⟩
      · rintro ⟨kept, further⟩
        refine (bareAfter_write_of_kept visible read kept).trans ?_
        rw [congr]
        exact congrArg _ ((ih furtherGaps).2 further)

theorem gapsKept_of_isSpacing {tokens : List Token} {trailing : List Char}
    (spaced : ∀ token ∈ tokens, ∀ c ∈ token.gap, Trivia.isSpacing c = true)
    (spacedEnd : ∀ c ∈ trailing, Trivia.isSpacing c = true) (joining : Joining) :
    joining.GapsKept trailing tokens := by
  have written : ∀ {gap : List Char}, (∀ c ∈ gap, Trivia.isSpacing c = true) →
      ∀ (joining : Joining) (ahead : List Char), Trivia.Whole (joining.write ahead gap) := by
    intro gap blank joining ahead
    have free : ';' ∉ gap := by
      intro mem
      have spacing := blank _ mem
      revert spacing
      decide
    exact Trivia.whole_of_isSpacing fun c mem => blank c (joining.write_subset ahead free mem)
  induction tokens generalizing joining with
  | nil =>
      have whole := written spacedEnd joining [] []
      rw [List.append_nil] at whole
      exact congrArg Prod.snd whole
  | cons token tokens ih =>
      rw [List.forall_mem_cons] at spaced
      exact ⟨written spaced.1 _ _, ih spaced.2 _⟩

end Joining

/-- Whether the gaps of `head`, a semicolon and `code` are kept when the pieces of `code`
are joined again. -/
def KeepsGaps (head code : List Char) : Prop :=
  let scan := Scan.ofSource (head ++ "; ".toList ++ code)
  (Joining.copying head.length).GapsKept scan.trailing scan.tokens

/-- Whether the literals are. -/
def KeepsLiterals (head code : List Char) : Prop :=
  let scan := Scan.ofSource (head ++ "; ".toList ++ code)
  (Joining.copying head.length).LiteralsKept scan.trailing none scan.tokens

/-- If the gaps are kept, then the tokens of the code joined again are the same if and
only if the literals are kept. -/
theorem bare_tokenize_write_iff {head code : List Char} (gaps : KeepsGaps head code) :
    (tokenize (head ++ "; ".toList ++ Joining.opening.write [] code)).map bare =
        (tokenize (head ++ "; ".toList ++ code)).map bare ↔
      KeepsLiterals head code := by
  have source := Scan.source_ofSource (head ++ "; ".toList ++ code)
  have iff := Joining.bareAfter_write_iff (scanned_tokenize (head ++ "; ".toList ++ code)) gaps
  rw [Scan.source] at source
  rw [tokenize, source, Joining.write_copying_append] at iff
  exact iff

section Rewrite

variable {clause code : List Char} {declaration : Declaration}

/-- If no line comment loses its line break, then the code after an import keeps its
tokens if and only if its literals are kept. -/
theorem bare_tokenize_rewrite_iff (parsed : parse? clause = some declaration)
    (noTail : declaration.tail = []) (free : ';' ∉ clause)
    (others : ∀ piece ∈ Text.cutAtChar ';' code, parse? (Text.trim piece) = none)
    (gaps : KeepsGaps (rewrite clause) code) :
    (tokenize (rewrite (clause ++ "; ".toList ++ code))).map bare =
        (tokenize (rewrite clause ++ "; ".toList ++ code)).map bare ↔
      KeepsLiterals (rewrite clause) code := by
  rw [rewrite_append parsed noTail free others]
  exact bare_tokenize_write_iff gaps

end Rewrite

section Example

/-- The tokens of `import a from 'm'` when it is rewritten. -/
private def importTokens : List Token :=
  [⟨.identifier, [], "import".toList⟩, ⟨.identifier, [' '], "repl_a".toList⟩,
    ⟨.identifier, [' '], "from".toList⟩, ⟨.string, [' '], "'m'".toList⟩,
    ⟨.punctuator, [], [';']⟩, ⟨.identifier, [' '], "var".toList⟩, ⟨.identifier, [' '], ['a']⟩,
    ⟨.punctuator, [' '], ['=']⟩, ⟨.identifier, [' '], "repl_a".toList⟩]

private theorem parse?_import :
    parse? "import a from 'm'".toList = some ⟨⟨some ['a'], none, []⟩, "'m'".toList, [], []⟩ := by
  decide

private theorem rewrite_import :
    rewrite "import a from 'm'".toList = "import repl_a from 'm'; var a = repl_a".toList := by
  rw [rewrite_of_parse? parse?_import (by decide)]
  rfl

/-- A string that has a semicolon and one space behind it is kept. -/
theorem bare_tokenize_rewrite_iff_string :
    let clause := "import a from 'm'".toList
    let code := "x = 'p; q' ;y".toList
    let declaration : Declaration := ⟨⟨some ['a'], none, []⟩, "'m'".toList, [], []⟩
    (parse? clause = some declaration ∧ declaration.tail = [] ∧ ';' ∉ clause ∧
        (∀ piece ∈ Text.cutAtChar ';' code, parse? (Text.trim piece) = none) ∧
        KeepsGaps (rewrite clause) code) ∧
      ((tokenize (rewrite (clause ++ "; ".toList ++ code))).map bare =
          (tokenize (rewrite clause ++ "; ".toList ++ code)).map bare ↔
        KeepsLiterals (rewrite clause) code) := by
  intro clause code declaration
  have free : ';' ∉ clause := by decide
  have others : ∀ piece ∈ Text.cutAtChar ';' code, parse? (Text.trim piece) = none := by decide
  have scanned : Scan.within 17 none
      ("import repl_a from 'm'; var a = repl_a".toList ++ "; ".toList ++ code) =
        some ⟨importTokens ++
          [⟨.punctuator, [], [';']⟩, ⟨.identifier, [' '], ['x']⟩, ⟨.punctuator, [' '], ['=']⟩,
            ⟨.string, [' '], "'p; q'".toList⟩, ⟨.punctuator, [' '], [';']⟩,
            ⟨.identifier, [], ['y']⟩], []⟩ := by decide
  have gaps : KeepsGaps (rewrite clause) code := by
    rw [KeepsGaps, rewrite_import, Scan.ofSource_of_within scanned]
    have space : Trivia.isSpacing ' ' = true := rfl
    exact Joining.gapsKept_of_isSpacing (by simp [importTokens, space]) (by simp) _
  exact ⟨⟨parse?_import, rfl, free, others, gaps⟩,
    bare_tokenize_rewrite_iff parse?_import rfl free others gaps⟩

/-- The string in `x = 'p;q'` gets a space. -/
theorem bare_tokenize_rewrite_ne :
    ∃ (clause code : List Char) (declaration : Declaration),
      parse? clause = some declaration ∧ declaration.tail = [] ∧ ';' ∉ clause ∧
        (∀ piece ∈ Text.cutAtChar ';' code, parse? (Text.trim piece) = none) ∧
        (tokenize (rewrite (clause ++ "; ".toList ++ code))).map bare ≠
          (tokenize (rewrite clause ++ "; ".toList ++ code)).map bare := by
  have free : ';' ∉ "import a from 'm'".toList := by decide
  have others : ∀ piece ∈ Text.cutAtChar ';' "x = 'p;q'".toList,
      parse? (Text.trim piece) = none := by decide
  have scanned : ∀ text ∈ ["'p;q'", "'p; q'"],
      Scan.within 15 none
        ("import repl_a from 'm'; var a = repl_a; x = ".toList ++ text.toList) =
          some ⟨importTokens ++ [⟨.punctuator, [], [';']⟩, ⟨.identifier, [' '], ['x']⟩,
            ⟨.punctuator, [' '], ['=']⟩, ⟨.string, [' '], text.toList⟩], []⟩ := by decide
  have tokens : ∀ text ∈ ["'p;q'", "'p; q'"],
      tokenize ("import repl_a from 'm'; var a = repl_a; x = ".toList ++ text.toList) =
        importTokens ++ [⟨.punctuator, [], [';']⟩, ⟨.identifier, [' '], ['x']⟩,
          ⟨.punctuator, [' '], ['=']⟩, ⟨.string, [' '], text.toList⟩] :=
    fun text mem => congrArg Scan.tokens (Scan.ofSource_of_within (scanned text mem))
  have before : rewrite "import a from 'm'".toList ++ "; ".toList ++ "x = 'p;q'".toList =
      "import repl_a from 'm'; var a = repl_a; x = ".toList ++ "'p;q'".toList := by
    rw [rewrite_import]
    decide
  have rewritten : rewrite ("import a from 'm'".toList ++ "; ".toList ++ "x = 'p;q'".toList) =
      "import repl_a from 'm'; var a = repl_a; x = ".toList ++ "'p; q'".toList := by
    rw [rewrite_append parse?_import rfl free others, rewrite_import]
    decide
  refine ⟨_, _, _, parse?_import, rfl, free, others, ?_⟩
  rw [before, rewritten, tokens _ (by simp), tokens _ (by simp)]
  decide

end Example

end Import

end ScriptConsole

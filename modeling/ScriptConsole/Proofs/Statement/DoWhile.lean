import ScriptConsole.Proofs.Statement.Semicolons
import ScriptConsole.Proofs.Token.Scanning

/-!
# Where a loop with its condition last ends

The bracket that closes the condition of `do ... while (...)` is taken for the end
of a header, and no line break ends a statement after one.  So the loop goes on
with whatever follows it, unless that is a semicolon.
-/

namespace ScriptConsole.Statement

open Token

namespace Cutter

/-- What a token in brackets does to a statement that has begun: it belongs to it. -/
theorem advance_inside {kind : Kind} {reversed : List Token} {depth : Nat}
    {headerOpen afterHeader : Bool} {token : Token}
    (stays : Declaration.depthAfter (depth + 1) token ≠ 0) (before rest : List Token) :
    (⟨some ⟨kind, reversed⟩, depth + 1, headerOpen, afterHeader⟩ : Cutter).advance before
        token rest =
      ([], ⟨some ⟨kind, token :: reversed⟩, Declaration.depthAfter (depth + 1) token,
        headerOpen, false⟩) := by
  unfold Declaration.depthAfter isOpener isCloser at stays ⊢
  unfold advance
  simp only [continued?, endsBefore, Nat.reduceBeqDiff, Bool.false_and, Bool.false_eq_true,
    if_false, add]
  cases opens : token.opens? with
  | some bracket => simp [Draft.push]
  | none =>
      cases closes : token.closes? with
      | some bracket =>
          have deep : depth ≠ 0 := by simpa [opens, closes] using stays
          simp [deep, Draft.push]
      | none => simp [Draft.push]

/-- A well-nested run in brackets belongs to the statement that has begun. -/
theorem through_inside {tokens : List Token} (nested : WellNested tokens) (kind : Kind)
    (reversed : List Token) (depth : Nat) (headerOpen afterHeader : Bool)
    (before rest : List Token) :
    (⟨some ⟨kind, reversed⟩, depth + 1, headerOpen, afterHeader⟩ : Cutter).through before
        tokens rest =
      ([], ⟨some ⟨kind, tokens.reverse ++ reversed⟩, depth + 1, headerOpen,
        afterHeader && tokens.isEmpty⟩) := by
  induction nested generalizing reversed depth afterHeader before rest with
  | nil => simp [through]
  | @plain token tokens opens closes tail ih =>
      have stays := depthAfter_of_plain opens closes (depth + 1)
      rw [through, advance_inside (by rw [stays]; omega), stays]
      simp only [ih]
      simp
  | @group opening closing inner tail bracket opens closes within outside ihWithin ihOutside =>
      have deeper := depthAfter_of_opens opens (depth + 1)
      have back : Declaration.depthAfter (depth + 1 + 1) closing = depth + 1 :=
        depthAfter_of_closes closes (depth + 1 + 1)
      rw [through, advance_inside (by rw [deeper]; omega), deeper]
      simp only [through_append, ihWithin, through]
      rw [advance_inside (by rw [back]; omega), back]
      simp only [ihOutside]
      simp

/-- A bracket and what stands in it belong to the statement that has begun; round brackets
after the word of a header are one. -/
theorem through_opened {kind : Kind} {reversed before inner : List Token} {afterHeader : Bool}
    {opening : Token} {bracket : Bracket} (opens : opening.opens? = some bracket)
    (nested : WellNested inner)
    (goesOn : (⟨some ⟨kind, reversed⟩, 0, false, afterHeader⟩ : Cutter).endsBefore
      before.head? opening ⟨kind, reversed⟩ = false) (rest : List Token) :
    (⟨some ⟨kind, reversed⟩, 0, false, afterHeader⟩ : Cutter).through before
        (opening :: inner) rest =
      ([], ⟨some ⟨kind, inner.reverse ++ opening :: reversed⟩, 1,
        bracket == .round && opensHeader before, false⟩) := by
  have entered (rest : List Token) :
      (⟨some ⟨kind, reversed⟩, 0, false, afterHeader⟩ : Cutter).advance before opening rest =
        ([], ⟨some ⟨kind, opening :: reversed⟩, 1, bracket == .round && opensHeader before,
          false⟩) := by
    simp [advance, continued?, goesOn, add, opens, Draft.push]
  rw [through, entered]
  simp only [through_inside nested, List.nil_append, Bool.false_and]

/-- A bracket and the one that closes it belong to the statement that has begun, unless
the bracket that closes ends it; round brackets after the word of a header are one. -/
theorem through_group {kind : Kind} {reversed before inner rest : List Token}
    {afterHeader : Bool} {opening closing : Token} {bracket : Bracket}
    (opens : opening.opens? = some bracket) (nested : WellNested inner)
    (closes : closing.closes? = some bracket)
    (goesOn : (⟨some ⟨kind, reversed⟩, 0, false, afterHeader⟩ : Cutter).endsBefore
      before.head? opening ⟨kind, reversed⟩ = false)
    (stays : bracket = .curly → kind.endsWithBlock = true →
      continuesAfterBlock kind rest.head? = true) :
    (⟨some ⟨kind, reversed⟩, 0, false, afterHeader⟩ : Cutter).through before
        (opening :: (inner ++ [closing])) rest =
      ([], ⟨some ⟨kind, closing :: (inner.reverse ++ opening :: reversed)⟩, 0, false,
        bracket == .round && opensHeader before⟩) := by
  have closed (reversed before : List Token) (headerOpen : Bool)
      (header : bracket ≠ .round → headerOpen = false) :
      (⟨some ⟨kind, reversed⟩, 1, headerOpen, false⟩ : Cutter).advance before closing rest =
        ([], ⟨some ⟨kind, closing :: reversed⟩, 0, false, headerOpen⟩) := by
    have noEnd : (bracket == .curly && kind.endsWithBlock &&
        !continuesAfterBlock kind rest.head?) = false := by
      rw [Bool.eq_false_iff]
      intro ends
      simp only [Bool.and_eq_true, beq_iff_eq, Bool.not_eq_true'] at ends
      rw [stays ends.1.1 ends.1.2] at ends
      cases ends.2
    have settled : (bracket == .round && headerOpen) = headerOpen := by
      by_cases round : bracket = .round
      · simp [round]
      · simp [header round]
    simp [advance, continued?, endsBefore, add, opens?_eq_none_of_closes? closes, closes,
      noEnd, settled, Draft.push]
  rw [← List.cons_append, through_append, through_opened opens nested goesOn, through_singleton,
    closed _ _ _ (by rintro notRound; simp [notRound])]
  rfl

/-- A curly bracket that closes ends a statement that ends with a block and does not go on
after it. -/
theorem through_group_of_ends {kind : Kind} {reversed before inner rest : List Token}
    {afterHeader : Bool} {opening closing : Token} (opens : opening.opens? = some .curly)
    (nested : WellNested inner) (closes : closing.closes? = some .curly)
    (goesOn : (⟨some ⟨kind, reversed⟩, 0, false, afterHeader⟩ : Cutter).endsBefore
      before.head? opening ⟨kind, reversed⟩ = false)
    (block : kind.endsWithBlock = true) (ends : continuesAfterBlock kind rest.head? = false) :
    (⟨some ⟨kind, reversed⟩, 0, false, afterHeader⟩ : Cutter).through before
        (opening :: (inner ++ [closing])) rest =
      ([⟨kind, reversed.reverse ++ opening :: (inner ++ [closing]), none⟩], .initial) := by
  have closed (reversed before : List Token) :
      (⟨some ⟨kind, reversed⟩, 1, false, false⟩ : Cutter).advance before closing rest =
        ([⟨kind, reversed.reverse ++ [closing], none⟩], .initial) := by
    simp [advance, continued?, endsBefore, add, opens?_eq_none_of_closes? closes, closes, block,
      ends, Draft.push, Draft.close, initial]
  rw [← List.cons_append, through_append, through_opened opens nested goesOn, through_singleton,
    show (Bracket.curly == .round && opensHeader before) = false from rfl, closed]
  simp

end Cutter

/-- The tokens of a statement `do { ... } while (...)`. -/
inductive DoWhile : List Token → Prop where
  | mk {loop opening closing keyword first last : Token} {body condition : List Token}
      (loops : loop.isWord "do" = true) (opens : opening.opens? = some .curly)
      (nested : WellNested body) (closes : closing.closes? = some .curly)
      (repeats : keyword.isWord "while" = true) (begins : first.opens? = some .round)
      (tested : WellNested condition) (ends : last.closes? = some .round) :
      DoWhile ([loop] ++ (opening :: (body ++ [closing])) ++ [keyword] ++
        first :: (condition ++ [last]))

theorem kindOf_do {token : Token} (loops : token.isWord "do" = true) (rest : List Token) :
    kindOf token rest = .doWhile := by
  obtain ⟨kind, text⟩ := isWord_iff.1 loops
  simp [kindOf, kindOfWord, opensWith, opens?, isIdentifier, isWordIn, isWord, kind, text,
    blockWords]

theorem breaksBetween_of_opens {token : Token} (opens : token.opens? = some .round)
    (previous : Token) : breaksBetween previous token = false := by
  obtain ⟨kind, text⟩ := opens?_eq_some_iff.1 opens
  simp [breaksBetween, continuesExpression, kind, isPunctuatorIn, text, Bracket.opening]

/-- A loop is read as one statement that may go on, at the end of a header. -/
theorem through_doWhile {tokens : List Token} (loop : DoWhile tokens) (rest : List Token) :
    Cutter.initial.through [] tokens rest =
      ([], ⟨some ⟨.doWhile, tokens.reverse⟩, 0, false, true⟩) := by
  obtain @⟨loop, opening, closing, keyword, first, last, body, condition, loops, opens, nested,
    closes, repeats, begins, tested, ends⟩ := loop
  obtain ⟨loopKind, loopText⟩ := isWord_iff.1 loops
  obtain ⟨keywordKind, keywordText⟩ := isWord_iff.1 repeats
  have begun (rest : List Token) : Cutter.initial.advance [] loop rest =
      ([], ⟨some ⟨.doWhile, [loop]⟩, 0, false, false⟩) := by
    simp [Cutter.initial, Cutter.advance, Cutter.continued?, Cutter.ended?, Cutter.begin,
      Cutter.add, kindOf_do loops, isPunctuator, opens?, closes?, loopKind, Draft.push]
  have goesOn : canEndWith loop = false := by
    simp [canEndWith, loopKind, isWordIn, loopText, nonTerminalWords]
  have repeated (reversed before rest : List Token) (afterHeader : Bool) :
      (⟨some ⟨.doWhile, reversed⟩, 0, false, afterHeader⟩ : Cutter).advance before keyword rest =
        ([], ⟨some ⟨.doWhile, keyword :: reversed⟩, 0, false, false⟩) := by
    simp [Cutter.advance, Cutter.continued?, Cutter.endsBefore, repeats, Cutter.add,
      isPunctuator, opens?, closes?, keywordKind, Draft.push]
  have header (before : List Token) : opensHeader (keyword :: before) = true := by
    simp [opensHeader, isWordIn, keywordKind, keywordText, headerWords]
  simp only [Cutter.through_append, Cutter.through_singleton, begun, List.reverse_singleton,
    List.append_nil]
  rw [Cutter.through_group opens nested closes (by simp [Cutter.endsBefore, breaksBetween, goesOn])
    (by simp [continuesAfterBlock, repeats])]
  simp only [repeated]
  rw [Cutter.through_group begins tested ends (by
    simp [Cutter.endsBefore, breaksBetween_of_opens begins]) (by rintro ⟨⟩)]
  simp [header]

/-- Whether a loop ends before these tokens: there are none, or a semicolon comes first
that no `else` follows. -/
def endsLoop : List Token → Bool
  | [] => true
  | token :: rest => token.isPunctuator ";" && !rest.head?.any (·.isWord "else")

/-- A loop is a statement of its own exactly if nothing follows it, or a semicolon that no
`else` follows; what stands after that is cut as if alone.  Anything else, also on a line
of its own, is taken into the statement of the loop. -/
theorem split_doWhile_cases {tokens : List Token} (loop : DoWhile tokens)
    (following : List Token) :
    (endsLoop following = true ∧
        split (tokens ++ following) =
          ⟨.doWhile, tokens, following.head?⟩ :: split following.tail) ∨
      (endsLoop following = false ∧
        ∃ token taken semicolon statements,
          following = token :: taken ++ semicolon.toList ++ tokensOf statements ∧
          split (tokens ++ following) =
            ⟨.doWhile, tokens ++ token :: taken, semicolon⟩ :: statements) := by
  have cut : split (tokens ++ following) =
      cutFrom tokens.reverse ⟨some ⟨.doWhile, tokens.reverse⟩, 0, false, true⟩ following := by
    rw [split, cutFrom_append, through_doWhile loop]
    simp
  cases following with
  | nil => exact .inl ⟨rfl, by rw [cut]; simp [cutFrom, Draft.close, split, Cutter.initial]⟩
  | cons token rest =>
      have goesOn : Cutter.continued? ⟨some ⟨.doWhile, tokens.reverse⟩, 0, false, true⟩
          tokens.reverse.head? token = some ⟨.doWhile, tokens.reverse⟩ := by
        simp [Cutter.continued?, Cutter.endsBefore]
      cases ends : endsLoop (token :: rest) with
      | true =>
          simp only [endsLoop, Bool.and_eq_true, Bool.not_eq_true'] at ends
          obtain ⟨opens, closes⟩ := plain_of_isPunctuator (by simp) ends.1
          refine .inl ⟨rfl, ?_⟩
          rw [cut, cutFrom_cons_of_continued goesOn]
          simp [Cutter.add, opens, closes, ends, Draft.close,
            ← cutFrom_of_semicolon ends.1 tokens.reverse, Cutter.initial]
      | false =>
          obtain ⟨more, semicolon, statements, hcut, next⟩ :=
            exists_cutFrom_cons_of_continued goesOn rest
          rcases next with first | ⟨-, -, -, mark, noElse⟩
          · cases more with
            | nil => cases first
            | cons first more =>
                cases first
                rw [List.reverse_reverse] at hcut
                have all := tokensOf_split (tokens ++ token :: rest)
                rw [cut, hcut, tokensOf_cons] at all
                refine .inr ⟨rfl, token, more, semicolon, statements, ?_, cut.trans hcut⟩
                simpa [allTokens] using all.symm
          · simp [endsLoop, mark, noElse] at ends

/-- The loop `do { await a } while (b)` before the line `foo`. -/
theorem split_doWhile_cases_lineBreak :
    let tokens : List Token :=
      [⟨.identifier, [], "do".toList⟩] ++ (⟨.punctuator, [' '], ['\x7b']⟩ ::
        ([⟨.identifier, [' '], "await".toList⟩, ⟨.identifier, [' '], ['a']⟩] ++
          [⟨.punctuator, [' '], ['\x7d']⟩])) ++ [⟨.identifier, [' '], "while".toList⟩] ++
        ⟨.punctuator, [' '], ['(']⟩ ::
          ([⟨.identifier, [], ['b']⟩] ++ [⟨.punctuator, [], [')']⟩])
    let following : List Token := [⟨.identifier, ['\n'], "foo".toList⟩]
    DoWhile tokens ∧
      ((endsLoop following = true ∧
          split (tokens ++ following) =
            ⟨.doWhile, tokens, following.head?⟩ :: split following.tail) ∨
        (endsLoop following = false ∧
          ∃ token taken semicolon statements,
            following = token :: taken ++ semicolon.toList ++ tokensOf statements ∧
            split (tokens ++ following) =
              ⟨.doWhile, tokens ++ token :: taken, semicolon⟩ :: statements)) := by
  intro tokens following
  have loop : DoWhile tokens :=
    .mk (by decide) (by decide) ((wellNested_iff _).2 (by decide)) (by decide) (by decide)
      (by decide) ((wellNested_iff _).2 (by decide)) (by decide)
  exact ⟨loop, split_doWhile_cases loop following⟩

/-- The loop `do { await a } while (b)` takes in the line `foo` after it, which a semicolon
after the loop would keep apart. -/
theorem split_doWhile_ne :
    ∃ tokens : List Token, ∃ word semicolon : Token, DoWhile tokens ∧
      word.isIdentifier = true ∧ word.startsLine = true ∧
      kindOf word [] = .expression ∧ continuesExpression word = false ∧
      semicolon.isPunctuator ";" = true ∧
      tokenize "do \x7b await a \x7d while (b)\nfoo".toList = tokens ++ [word] ∧
      split (tokens ++ [word]) = [⟨.doWhile, tokens ++ [word], none⟩] ∧
      split (tokens ++ [word]) ≠ ⟨.doWhile, tokens, none⟩ :: split [word] ∧
      split (tokens ++ [semicolon, word]) =
        ⟨.doWhile, tokens, some semicolon⟩ :: split [word] := by
  let tokens : List Token :=
    [⟨.identifier, [], "do".toList⟩] ++ (⟨.punctuator, [' '], ['\x7b']⟩ ::
      ([⟨.identifier, [' '], "await".toList⟩, ⟨.identifier, [' '], ['a']⟩] ++
        [⟨.punctuator, [' '], ['\x7d']⟩])) ++ [⟨.identifier, [' '], "while".toList⟩] ++
      ⟨.punctuator, [' '], ['(']⟩ :: ([⟨.identifier, [], ['b']⟩] ++ [⟨.punctuator, [], [')']⟩])
  let word : Token := ⟨.identifier, ['\n'], "foo".toList⟩
  have scanned : Scan.within 11 none "do \x7b await a \x7d while (b)\nfoo".toList =
      some ⟨tokens ++ [word], []⟩ := by decide
  have loop : DoWhile tokens :=
    .mk (by decide) (by decide) ((wellNested_iff _).2 (by decide)) (by decide) (by decide)
      (by decide) ((wellNested_iff _).2 (by decide)) (by decide)
  exact ⟨tokens, word, ⟨.punctuator, [], [';']⟩, loop, by decide, by decide, by decide,
    by decide, by decide, congrArg Scan.tokens (Scan.ofSource_of_within scanned), by decide,
    by decide, by decide⟩

end ScriptConsole.Statement

import ScriptConsole.Proofs.AsyncWrap.Brackets

/-!
# Wrapping a complete source

A complete source is wrapped into a complete one, in which nothing suspends: all
that did stands in the body of an arrow function.  So one wrap is enough.
-/

namespace ScriptConsole

open Token

namespace Suspension

/-- No token of a run that `next` follows can suspend: none is a template, and no
operand follows a word `await`. -/
def Inert (next : Option Token) : List Token → Prop
  | [] => True
  | token :: rest =>
      token.kind ≠ .template ∧
        (token.isWord "await" = true →
          ∀ after ∈ rest.head?.or next, after.isPunctuatorIn nonOperandPunctuators = true) ∧
        Inert next rest

theorem inert_append_iff {next : Option Token} {left right : List Token} :
    Inert next (left ++ right) ↔ Inert (right.head?.or next) left ∧ Inert next right := by
  induction left with
  | nil => exact ⟨fun inert => ⟨trivial, inert⟩, fun h => h.2⟩
  | cons token left ih =>
      have head : ((left ++ right).head?.or next) = left.head?.or (right.head?.or next) := by
        rw [List.head?_append, Option.or_assoc]
      rw [List.cons_append, Inert, Inert, ih, head, and_assoc, and_assoc]

theorem inert_map_bare {next : Option Token} {tokens : List Token} :
    Inert (next.map bare) (tokens.map bare) ↔ Inert next tokens := by
  induction tokens with
  | nil => exact Iff.rfl
  | cons token tokens ih =>
      have head : (tokens.map bare).head?.or (next.map bare) = (tokens.head?.or next).map bare := by
        cases tokens <;> rfl
      rw [List.map_cons, Inert, Inert, ih, head]
      refine and_congr Iff.rfl (and_congr ?_ Iff.rfl)
      cases tokens.head?.or next with
      | none => simp [isWord]
      | some after => simp [isWord, isPunctuatorIn]

theorem found_eq_false_of_inert {next : Option Token} {tokens : List Token}
    (inert : Inert next tokens) (before : List Token) (context : Context) :
    found before context next tokens = false := by
  induction tokens generalizing before context with
  | nil => rfl
  | cons token rest ih =>
      obtain ⟨noTemplate, noOperand, tail⟩ := inert
      have noPoint : pointAt before.head? context token (rest.head?.or next) = false := by
        have kind : (token.kind == .template) = false := by simpa using noTemplate
        cases word : token.isWord "await" with
        | false => simp [pointAt, word, kind]
        | true =>
            have noOperator : isOperatorBetween before.head? (rest.head?.or next) = false := by
              cases following : rest.head?.or next with
              | none => simp [isOperatorBetween]
              | some after => simp [isOperatorBetween, noOperand word after following]
            simp [pointAt, noOperator, kind]
      rw [found, noPoint, ih tail]
      rfl

theorem suspends_eq_false_of_arrow {left inner right : List Token}
    {arrow opening closing : Token} (isArrow : arrow.isPunctuator "=>" = true)
    (opens : opening.opens? = some .curly) (closes : closing.closes? = some .curly)
    (nested : WellNested inner) (before : Inert (some opening) (left ++ [arrow]))
    (after : Inert none right) :
    suspends (left ++ [arrow] ++ opening :: (inner ++ closing :: right)) = false := by
  have body : ∀ context : Context,
      (context.settle (left ++ [arrow]).reverse.head? opening).opensBody
        (left ++ [arrow]).reverse = true := by
    intro context
    simp [Context.opensBody, isArrow]
  have rest : ∀ context : Context, suspendsAfter [closing] context right = false := by
    intro context
    have whole := suspendsAfter_append [closing] context right []
    rw [List.append_nil, suspendsAfter_nil, Bool.or_false] at whole
    rw [whole]
    exact found_eq_false_of_inert after _ _
  rw [suspends, suspendsAfter_append, List.append_nil, List.head?_cons,
    found_eq_false_of_inert before, suspendsAfter_body opens closes nested (body _), rest]
  rfl

end Suspension

namespace AsyncWrap

open Statement Suspension

/-- A source whose literals and comments are closed: a semicolon on a new line after it
is one more token. -/
def Closed (source : List Char) : Prop :=
  ∃ gap, tokenize (source ++ "\n;".toList) = tokenize source ++ [⟨.punctuator, gap, [';']⟩]

theorem bareAfter_of_closed {source : List Char} (closed : Closed source) :
    Scan.bareAfter none (source ++ '\n' :: [';']) = (tokenize source).map bare ++ [mark ";"] := by
  obtain ⟨gap, tokens⟩ := closed
  have map := congrArg (List.map bare) tokens
  rw [List.map_append] at map
  exact map

theorem isOpenLiteral_of_closed {source : List Char} (divides : Divides none (tokenize source))
    (closed : Closed source) {token : Token} (mem : token ∈ tokenize source) :
    Lexeme.isOpenLiteral token.kind token.text = false := by
  apply Bool.eq_false_iff.2
  intro opened
  have scanned := scanned_tokenize source
  have whole : sourceOf (tokenize source) ++ (Scan.ofSource source).trailing = source :=
    Scan.source_ofSource source
  have longer := bareAfter_of_closed closed
  obtain ⟨left, right, hsplit⟩ := List.append_of_mem mem
  rw [hsplit] at scanned divides whole longer
  obtain ⟨rfl, nothing⟩ := scanned.eq_nil_of_isOpenLiteral opened
  obtain ⟨leftScanned, literalScanned⟩ := Scanned.append_iff.1 scanned
  rw [nothing, List.append_nil] at whole leftScanned
  have line : '\n' ∈ barriers := by decide
  have alike := (Alike.barrier line [] [';']).append (sourceOf [token])
  rw [List.append_nil] at alike
  have nonempty : sourceOf [token] ≠ [] := by
    rw [ne_eq, sourceOf_eq_nil_iff_of_scanned literalScanned]
    exact List.cons_ne_nil _ _
  have first := @bareAfter_run _ none _ _ _ leftScanned (divides_append_iff.1 divides).1
    (.inr alike) (absurd · nonempty) fun _ _ _ => rfl
  -- The literal takes the line break, so that its text is longer than it was.
  obtain ⟨-, taken, rest, -, reads⟩ := literalScanned.bareAfter_of_isOpenLiteral opened '\n' [';']
  have gap : Trivia.Whole token.gap := literalScanned.whole_gap List.mem_cons_self
  have text : source ++ '\n' :: [';'] =
      sourceOf left ++ (sourceOf [token] ++ '\n' :: [';']) := by
    rw [← whole]
    simp
  rw [text, first, sourceOf_cons, sourceOf_nil, List.append_nil, List.append_assoc,
    Scan.bareAfter_append_of_whole gap, reads, List.map_append, List.append_assoc] at longer
  have same := List.append_cancel_left longer
  have texts := congrArg Token.text (List.cons.inj same).1
  have := congrArg List.length texts
  simp at this

theorem opensComment_of_closed {source : List Char} (divides : Divides none (tokenize source))
    (closed : Closed source) : Trivia.opensComment (Scan.ofSource source).trailing = false := by
  apply Bool.eq_false_iff.2
  intro opened
  have scanned := scanned_tokenize source
  have whole : sourceOf (tokenize source) ++ (Scan.ofSource source).trailing = source :=
    Scan.source_ofSource source
  have first := @bareAfter_run _ none _ _ _ scanned divides (.inr (alike_trailing source [';']))
    (fun _ last hlast => isOpenLiteral_of_closed divides closed (List.mem_of_getLast? hlast))
    fun _ _ _ => rfl
  rw [bareAfter_trailing_of_opensComment opened rfl, ← List.append_assoc, whole,
    bareAfter_of_closed closed] at first
  have := List.append_cancel_left first
  cases this

/-- A hoisted name stands before a comma or a semicolon, also if it is `await`. -/
theorem inert_hoistedTokens (next : Option Token) (names : List (List Char)) :
    Inert next (hoistedTokens names) := by
  have var : (word "var").isWord "await" = false := rfl
  have comma : (mark ",").isPunctuatorIn nonOperandPunctuators = true := by decide
  have semicolon : (mark ";").isPunctuatorIn nonOperandPunctuators = true := by decide
  induction names with
  | nil => trivial
  | cons first names ih =>
      cases names with
      | nil =>
          have tokens : hoistedTokens [first] =
              [word "var", ⟨.identifier, [], first⟩, mark ";"] := by
            simp [hoistedTokens, List.intercalate_singleton]
          rw [tokens]
          refine ⟨by decide, by simp [var], by simp, ?_, by decide, ?_, trivial⟩
          · rintro - after ⟨⟩
            exact semicolon
          · intro impossible
            cases impossible
      | cons second names =>
          rw [hoistedTokens_cons_cons]
          have further : Inert next (hoistedTokens (second :: names)).tail := ih.2.2
          refine ⟨by decide, by simp [var], by simp, ?_, by decide, ?_, further⟩
          · rintro - after ⟨⟩
            exact comma
          · intro impossible
            cases impossible

theorem suspends_eq_false_of_map_bare {names : List (List Char)} {body tokens : List Token}
    (nested : WellNested body)
    (h : tokens.map bare = wrappedTokens names (body.map bare) closingTokens) :
    suspends tokens = false := by
  have parts : wrappedTokens names (body.map bare) closingTokens =
      (hoistedTokens names ++ [mark "(", word "async", mark "(", mark ")"]) ++ ([mark "=>"] ++
        ([mark "\x7b"] ++ (body.map bare ++ ([mark "\x7d"] ++
          [mark ")", mark "(", mark ")"])))) := by
    simp [wrappedTokens, openingTokens, closingTokens]
  rw [parts] at h
  obtain ⟨left, rest₁, rfl, hleft, h⟩ := List.map_eq_append_iff.1 h
  obtain ⟨arrows, rest₂, rfl, harrow, h⟩ := List.map_eq_append_iff.1 h
  obtain ⟨openings, rest₃, rfl, hopening, h⟩ := List.map_eq_append_iff.1 h
  obtain ⟨inner, rest₄, rfl, hinner, h⟩ := List.map_eq_append_iff.1 h
  obtain ⟨closings, right, rfl, hclosing, hright⟩ := List.map_eq_append_iff.1 h
  obtain ⟨arrow, rfl, isArrow⟩ := List.map_eq_singleton_iff.1 harrow
  obtain ⟨opening, rfl, isOpening⟩ := List.map_eq_singleton_iff.1 hopening
  obtain ⟨closing, rfl, isClosing⟩ := List.map_eq_singleton_iff.1 hclosing
  have arrowMark : arrow.isPunctuator "=>" = true := by
    change arrow.bare.isPunctuator "=>" = true
    rw [isArrow]
    rfl
  have opens : opening.opens? = some .curly := by
    rw [← opens?_bare, isOpening]
    rfl
  have closes : closing.closes? = some .curly := by
    rw [← closes?_bare, isClosing]
    rfl
  have within : WellNested inner := by
    rw [wellNested_iff, ← openAfter?_map_bare, hinner, openAfter?_map_bare]
    exact nested.openAfter? []
  have before : Inert (some opening) (left ++ [arrow]) := by
    rw [← inert_map_bare, List.map_append, hleft, inert_append_iff, inert_append_iff]
    refine ⟨⟨inert_hoistedTokens _ _, ?_⟩, ?_⟩
    · simp [Inert, isWord, word, mark]
    · simp [Inert, isWord, isArrow, mark]
  have after : Inert none right := by
    rw [← inert_map_bare, hright]
    simp [Inert, isWord, mark]
  have whole := suspends_eq_false_of_arrow arrowMark opens closes within before after
  simpa using whole

/-- Wrapping a complete source, its literals and comments closed, gives a complete source
that is not wrapped again. -/
theorem complete_of_wrap? {source wrapped : List Char}
    (complete : Completeness.check source = none) (closed : Closed source)
    (noSlash : ∀ token ∈ tokenize source, token.isSlash = false)
    (h : wrap? source = some wrapped) :
    Completeness.check wrapped = none ∧ wrap? wrapped = none := by
  obtain ⟨rfl, front, last, hsplit⟩ := exists_split_of_wrap? h
  have settled := slashesSettled_of_isSlash noSlash
  obtain ⟨faultless, balanced⟩ := Completeness.checkWithin_eq_none_iff.1 complete
  have laid := laid_split (tokenize source)
  have statements := tokensOf_split (tokenize source)
  rw [hsplit] at laid statements
  rw [← statements] at faultless balanced
  have literals : ∀ token ∈ tokensOf (front ++ [last]),
      Lexeme.isOpenLiteral token.kind token.text = false := by
    intro token mem
    rw [statements] at mem
    exact isOpenLiteral_of_closed settled.divides closed mem
  have tokens := map_bare_tokenize_wrap_of_closed settled hsplit
    (fun token mem => literals token (by simp [tokensOf_append, mem]))
    (fun token mem => isOpenLiteral_of_mem_renderedTokens
      (fun token own => literals token (mem_tokensOf (by simp) own)) mem)
  rw [opensComment_of_closed settled.divides closed, if_neg Bool.false_ne_true] at tokens
  obtain ⟨nested, ends, -⟩ := nested_of_laid laid .nil balanced
  have body : WellNested (bodyTokens [] (front ++ [last])) := by
    refine wellNested_bodyTokens [] (fun _ mem => exists_placed_of_mem laid mem) ?_
    rw [List.forall_mem_append]
    exact ⟨nested, by simpa using (wellNested_iff _).2 ends⟩
  constructor
  · rw [Completeness.check, ← Completeness.checkWithin_map_bare, tokens,
      checkWithin_wrappedTokens (fun token mem => fault?_of_mem_bodyTokens faultless mem) body]
    rfl
  · rw [wrap?, if_neg]
    rw [Bool.not_eq_true]
    exact suspends_eq_false_of_map_bare body tokens

/-- A comment at the end of a source does not take the end of the function around it. -/
theorem complete_of_wrap?_comment :
    (Completeness.check "await f() // done".toList = none ∧ Closed "await f() // done".toList ∧
      (∀ token ∈ tokenize "await f() // done".toList, token.isSlash = false) ∧
      wrap? "await f() // done".toList =
        some "(async () => \x7b return (await f()); // done\n \x7d)()".toList) ∧
      Completeness.check "(async () => \x7b return (await f()); // done\n \x7d)()".toList = none ∧
        wrap? "(async () => \x7b return (await f()); // done\n \x7d)()".toList = none := by
  have scanned : Scan.within 5 none "await f() // done".toList =
      some ⟨[⟨.identifier, [], "await".toList⟩, ⟨.identifier, [' '], ['f']⟩,
        ⟨.punctuator, [], ['(']⟩, ⟨.punctuator, [], [')']⟩], " // done".toList⟩ := by decide
  have longer : Scan.within 6 none ("await f() // done".toList ++ "\n;".toList) =
      some ⟨[⟨.identifier, [], "await".toList⟩, ⟨.identifier, [' '], ['f']⟩,
        ⟨.punctuator, [], ['(']⟩, ⟨.punctuator, [], [')']⟩,
        ⟨.punctuator, " // done\n".toList, [';']⟩], []⟩ := by decide
  have tokens := congrArg Scan.tokens (Scan.ofSource_of_within scanned)
  have complete : Completeness.check "await f() // done".toList = none := by
    rw [Completeness.check, tokenize, tokens]
    decide
  have closed : Closed "await f() // done".toList := by
    refine ⟨" // done\n".toList, ?_⟩
    rw [tokenize, tokenize, tokens, Scan.ofSource_of_within longer]
    rfl
  have noSlash : ∀ token ∈ tokenize "await f() // done".toList, token.isSlash = false := by
    rw [tokenize, tokens]
    decide
  have wraps : wrap? "await f() // done".toList =
      some "(async () => \x7b return (await f()); // done\n \x7d)()".toList :=
    wrap?_of_within scanned (by decide) (by decide)
  exact ⟨⟨complete, closed, noSlash, wraps⟩, complete_of_wrap? complete closed noSlash wraps⟩

end AsyncWrap

end ScriptConsole

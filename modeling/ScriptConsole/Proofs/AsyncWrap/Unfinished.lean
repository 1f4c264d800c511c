import ScriptConsole.Proofs.AsyncWrap.OpenEnd
import ScriptConsole.Proofs.Token.Literals

/-!
# Wrapping an unfinished source

A source that ends too early leaves a bracket or a template open.  Wrapping keeps
it unfinished as long as it keeps that end.  It does not keep the end of a last
declarator without an initializer, and the quoted text in which a source ends
takes what wrapping adds on its line.
-/

namespace ScriptConsole

open Token

theorem Scanned.isOpenLiteral_of_unexpectedEnd {previous : Option Token}
    {tokens : List Token} {rest : List Char} (scanned : Scanned previous tokens rest)
    {token : Token} (mem : token ∈ tokens)
    (fault : Completeness.fault? token = some .unexpectedEnd) :
    Lexeme.isOpenLiteral token.kind token.text = true ∧ token.kind = .template := by
  obtain ⟨previous, c, more, rest, text, read⟩ := scanned.exists_read mem
  unfold Completeness.fault? at fault
  cases kind : token.kind with
  | template =>
      rw [kind] at read fault
      refine ⟨?_, rfl⟩
      apply Decidable.byContradiction
      intro closed
      rw [text] at closed fault
      obtain ⟨rfl, inside, -, rfl⟩ :=
        Lexeme.exists_inside_of_read read (Bool.eq_false_iff.2 closed)
      simp [Completeness.isDelimited] at fault
  | string =>
      rw [kind] at fault
      dsimp only at fault
      split at fault <;> cases fault
  | identifier => simp [kind] at fault
  | number => simp [kind] at fault
  | regex => simp [kind] at fault
  | punctuator => simp [kind] at fault

namespace Completeness

/-- The fault of a literal that goes on to a character that is no mark of a literal. -/
theorem fault?_of_isOpenLiteral {kind : TokenKind} {c d : Char} {more taken gap : List Char}
    (opened : Lexeme.isOpenLiteral kind (c :: more) = true) (isMark : c ∈ Lexeme.literalMarks)
    (others : ∀ e ∈ d :: taken, e ∉ Lexeme.literalMarks) :
    fault? ⟨kind, gap, c :: (more ++ d :: taken)⟩ =
      some (if kind = .template then .unexpectedEnd else .openString) := by
  have ends : isDelimited (c :: (more ++ d :: taken)) = false := by
    have last : (more ++ d :: taken).getLast? = (d :: taken).getLast? := by
      simp [List.getLast?_append, List.getLast?_cons]
    rw [isDelimited, last, beq_eq_false_iff_ne]
    intro same
    exact others c (List.mem_of_getLast? same) isMark
  rcases Lexeme.kind_of_isOpenLiteral opened with rfl | rfl <;> simp [fault?, ends]

end Completeness

namespace AsyncWrap

open Declaration Statement Completeness

theorem isOpenLiteral_of_mem_dropLast_tokenize {source : List Char} {token : Token}
    (mem : token ∈ (tokenize source).dropLast) :
    Lexeme.isOpenLiteral token.kind token.text = false := by
  have scanned := scanned_tokenize source
  exact scanned.isOpenLiteral_of_mem_dropLast mem

theorem isOpenLiteral_of_getLast? {source : List Char}
    (noneOpen : ¬∃ literal ∈ (tokenize source).getLast?,
      Lexeme.isOpenLiteral literal.kind literal.text = true) {token : Token}
    (mem : token ∈ tokenize source) : Lexeme.isOpenLiteral token.kind token.text = false := by
  apply Bool.eq_false_iff.2
  intro opened
  have scanned := scanned_tokenize source
  obtain ⟨left, right, tokens⟩ := List.append_of_mem mem
  rw [tokens] at scanned
  obtain ⟨rfl, -⟩ := scanned.eq_nil_of_isOpenLiteral opened
  exact noneOpen ⟨token, by simp [tokens], opened⟩

/-- A source without faults before its last token, cut into statements. -/
structure EndsOpen (source : List Char) (front : List Statement) (last : Statement)
    (final : List Bracket) : Prop where
  settled : SlashesSettled source
  statements : split (tokenize source) = front ++ [last]
  faultless : ∀ token ∈ (tokenize source).dropLast, fault? token = none
  balanced : openAfter? [] (tokenize source) = some final

namespace EndsOpen

variable {source : List Char} {front : List Statement} {last : Statement}
  {final : List Bracket}

theorem laid (ends : EndsOpen source front last final) : Laid [] (front ++ [last]) := by
  rw [← ends.statements]
  exact laid_split _

theorem tokens (ends : EndsOpen source front last final) :
    tokenize source = tokensOf front ++ last.allTokens := by
  rw [← tokensOf_split (tokenize source), ends.statements, tokensOf_append]
  simp [tokensOf]

theorem nested (ends : EndsOpen source front last final) :
    (∀ statement ∈ front, WellNested statement.tokens) ∧
      openAfter? [] last.tokens = some final := by
  have balanced := ends.balanced
  rw [← tokensOf_split (tokenize source), ends.statements] at balanced
  obtain ⟨nested, open', -⟩ := nested_of_laid ends.laid .nil balanced
  exact ⟨nested, open'⟩

theorem exists_placed_last (ends : EndsOpen source front last final) :
    ∃ before after, Placed before last after :=
  exists_placed_of_mem ends.laid (List.mem_append_right front (List.mem_singleton_self last))

theorem wellNested_front (ends : EndsOpen source front last final) (after : List Statement) :
    WellNested (bodyTokens after front) :=
  wellNested_bodyTokens after
    (fun _ mem => exists_placed_of_mem ends.laid (List.mem_append_left _ mem)) ends.nested.1

theorem mem_dropLast_of_mem_front (ends : EndsOpen source front last final) {token : Token}
    (mem : token ∈ tokensOf front) : token ∈ (tokenize source).dropLast := by
  obtain ⟨before, after, placed⟩ := ends.exists_placed_last
  have nonempty : last.allTokens ≠ [] := by
    intro nothing
    obtain ⟨noTokens, noSemicolon⟩ := List.append_eq_nil_iff.1 nothing
    have := placed.semicolon_of_empty (placed.empty_iff.2 noTokens)
    cases h : last.semicolon <;> simp [h] at this noSemicolon
  rw [ends.tokens, List.dropLast_append_of_ne_nil nonempty]
  exact List.mem_append_left _ mem

theorem mem_dropLast_of_mem_last (ends : EndsOpen source front last final) {token : Token}
    (mem : token ∈ last.tokens.dropLast) : token ∈ (tokenize source).dropLast := by
  obtain ⟨init, literal, tokens⟩ : ∃ init literal, last.tokens = init ++ [literal] := by
    rcases List.eq_nil_or_concat last.tokens with nothing | ⟨init, literal, tokens⟩
    · rw [nothing] at mem
      cases mem
    · exact ⟨init, literal, tokens.trans List.concat_eq_append⟩
  rw [tokens, List.dropLast_concat] at mem
  have whole : tokenize source =
      (tokensOf front ++ init) ++ (literal :: last.semicolon.toList) := by
    rw [ends.tokens, allTokens, tokens]
    simp
  rw [whole, List.dropLast_append_of_ne_nil (List.cons_ne_nil _ _)]
  exact List.mem_append_left _ (List.mem_append_right _ mem)

theorem fault?_of_mem_front (ends : EndsOpen source front last final) {after : List Statement}
    {token : Token} (mem : token ∈ bodyTokens after front) : fault? token = none :=
  fault?_of_mem_bodyTokens
    (fun token own => ends.faultless token (ends.mem_dropLast_of_mem_front own)) mem

theorem fault?_of_mem_statementTokens {isLast : Bool}
    (faultless : ∀ token ∈ renderedTokens isLast last, fault? token = none) {token : Token}
    (mem : token ∈ statementTokens isLast last) : fault? token = none := by
  rcases List.mem_append.1 mem with rendered | semicolon
  · exact faultless token rendered
  · split at semicolon
    · obtain rfl := List.mem_singleton.1 semicolon
      rfl
    · cases semicolon

/-- Wrapping completes a source whose end it leaves out, unless a comment is open. -/
theorem check_wrap_of_leavesEndOut (ends : EndsOpen source front last final)
    (out : leavesEndOut last = true) :
    check (wrap (Scan.ofSource source)) =
      if Trivia.opensComment (Scan.ofSource source).trailing then some .unexpectedEnd
      else none := by
  have early : ∀ token ∈ renderedTokens true last, token ∈ (tokenize source).dropLast ∨
      token.kind = .identifier ∨ token.kind = .punctuator := fun token mem =>
    (mem_renderedTokens_of_leavesEndOut out mem).imp_left ends.mem_dropLast_of_mem_last
  have closed : ∀ token ∈ renderedTokens true last,
      Lexeme.isOpenLiteral token.kind token.text = false := by
    intro token mem
    exact (early token mem).elim isOpenLiteral_of_mem_dropLast_tokenize
      Lexeme.isOpenLiteral_eq_false_of_kind
  have faultless : ∀ token ∈ bodyTokens [] (front ++ [last]), fault? token = none := by
    intro token mem
    rw [bodyTokens_concat] at mem
    rcases List.mem_append.1 mem with inFront | inLast
    · exact ends.fault?_of_mem_front inFront
    · refine fault?_of_mem_statementTokens (fun token rendered => ?_) inLast
      exact (early token rendered).elim (ends.faultless token) fault?_eq_none_of_kind
  obtain ⟨before, after, placed⟩ := ends.exists_placed_last
  have nested : WellNested (bodyTokens [] (front ++ [last])) := by
    rw [bodyTokens_concat]
    exact (ends.wellNested_front _).append
      (wellNested_statementTokens placed ends.nested.2 (.inl out) true)
  have tokens := map_bare_tokenize_wrap_of_closed ends.settled ends.statements
    (fun token mem => isOpenLiteral_of_mem_dropLast_tokenize (ends.mem_dropLast_of_mem_front mem))
    closed
  rw [check, ← checkWithin_map_bare, tokens, checkWithin_wrappedTokens faultless nested]
  split <;> rfl

/-- Wrapping keeps a source unfinished that leaves a bracket open and no literal. -/
theorem exists_fault_of_kept (ends : EndsOpen source front last final)
    (kept : leavesEndOut last = false) (deeper : final ≠ [])
    (faultless : ∀ token ∈ tokenize source, fault? token = none)
    (closed : ∀ token ∈ tokenize source, Lexeme.isOpenLiteral token.kind token.text = false) :
    ∃ fault, check (wrap (Scan.ofSource source)) = some fault ∧
      ScriptError.asksForMore fault.message = true := by
  have inSource : ∀ token ∈ last.tokens, token ∈ tokenize source := by
    intro token mem
    rw [ends.tokens]
    exact List.mem_append_right _ (List.mem_append_left _ mem)
  have tokens := map_bare_tokenize_wrap_of_closed ends.settled ends.statements
    (fun token mem => isOpenLiteral_of_mem_dropLast_tokenize (ends.mem_dropLast_of_mem_front mem))
    fun token mem =>
      isOpenLiteral_of_mem_renderedTokens (fun own mem => closed own (inSource own mem)) mem
  obtain ⟨before, after, placed⟩ := ends.exists_placed_last
  have kept := surplus_statementTokens placed ends.nested.2 kept true
  have positive := List.length_pos_iff.2 deeper
  rw [check, ← checkWithin_map_bare, tokens]
  refine exists_fault_of_surplus (fun token mem => fault?_of_mem_wrappedTokens ?_ mem) ?_
  · rw [List.forall_mem_append]
    constructor
    · intro token mem
      obtain ⟨own, inBody, rfl⟩ := List.mem_map.1 mem
      rw [fault?_bare]
      refine fault?_of_mem_bodyTokens (fun token mem => faultless token ?_) inBody
      rwa [← tokensOf_split (tokenize source), ends.statements]
    · intro token mem
      split at mem
      · cases mem
      · exact fault?_of_mem_closingTokens mem
  · have closing : surplus closingTokens = -2 := rfl
    rw [surplus_wrappedTokens, surplus_map_bare, bodyTokens_concat, surplus_append,
      (ends.wellNested_front _).surplus, kept]
    split
    · rw [surplus]
      omega
    · rw [closing]
      omega

/-- What wrapping adds after an open literal holds no mark of a literal. -/
theorem exists_added {closing : List Token} (h : closing = [] ∨ closing = [mark ")"])
    (needsSemicolon : Bool) :
    ∃ d cs, textOf closing ++ (terminator none needsSemicolon ++ closingText) = d :: cs ∧
      ∀ e ∈ d :: cs, e ∉ Lexeme.literalMarks := by
  rcases h with rfl | rfl <;> cases needsSemicolon <;>
    exact ⟨_, _, rfl, forall_mem_of_all (by decide)⟩

/-- What stands before the literal in a new text closes no bracket of another kind. -/
theorem exists_openAfter?_before (ends : EndsOpen source front last final) {isLast : Bool}
    {init before closing : List Token} {literal : Token}
    (upTo : ReadUpTo isLast last init literal before closing)
    (opened : Lexeme.isOpenLiteral literal.kind literal.text = true) :
    ∃ inner, openAfter? [] before = some inner := by
  obtain ⟨before', after', placed⟩ := ends.exists_placed_last
  have early : ∀ {rest : List Token} {brackets : List Bracket},
      openAfter? [] (before ++ rest) = some brackets →
        ∃ inner, openAfter? [] before = some inner := by
    intro rest brackets h
    rw [openAfter?_append] at h
    obtain ⟨inner, hinner, -⟩ := Option.bind_eq_some_iff.1 h
    exact ⟨inner, hinner⟩
  rcases openAfter?_renderedTokens placed ends.nested.2 isLast with h | ⟨opening, inner, hinner, h⟩
  · rw [upTo.tokens] at h
    exact early h
  · have shape := upTo.tokens.symm.trans hinner
    rcases upTo.closing with rfl | rfl
    · have same : before ++ [literal] = (word opening :: mark "(" :: inner) ++ [mark ")"] := shape
      obtain ⟨-, literalEq⟩ := List.append_inj' same rfl
      cases literalEq
      cases opened
    · have same : (before ++ [literal]) ++ [mark ")"] =
          (word opening :: mark "(" :: inner) ++ [mark ")"] := by
        simpa [enclosed] using shape
      obtain ⟨tokens, -⟩ := List.append_inj' same rfl
      have deeper := openAfter?_append_outer h [.round]
      have whole : openAfter? [] (word opening :: mark "(" :: inner) =
          openAfter? ([] ++ [.round]) inner := by
        rw [openAfter?_cons_of_plain rfl rfl, @openAfter?_cons_of_opens (mark "(") .round rfl]
        rfl
      exact early (tokens ▸ whole.trans deeper)

/-- An open literal that wrapping keeps takes some of what wrapping adds after it. -/
theorem exists_map_bare_tokenize_wrap (ends : EndsOpen source front last final)
    (kept : leavesEndOut last = false) {init : List Token} {literal : Token}
    (tokens : last.tokens = init ++ [literal])
    (opened : Lexeme.isOpenLiteral literal.kind literal.text = true) :
    ∃ before closing text rest, ReadUpTo true last init literal before closing ∧
      (tokenize (wrap (Scan.ofSource source))).map bare =
        wrappedTokens (hoisted (front ++ [last])) ((bodyTokens [last] front).map bare)
          (before.map bare) ++ ⟨literal.kind, [], text⟩ :: rest ∧
      fault? ⟨literal.kind, [], text⟩ =
        some (if literal.kind = .template then .unexpectedEnd else .openString) := by
  have allRead := allRead_split ends.settled
  have alike := alike_trailing source " \x7d)()".toList
  have opens : Lexeme.allowsRegex (some (mark "\x7b")) = true := rfl
  rw [ends.statements] at allRead
  rw [← closingText_eq] at alike
  obtain ⟨previous₁, hfront, ⟨_, previous₂, lastRead⟩, slash⟩ :=
    @exists_bareAfter_renderAll _ _ (some (mark "\x7b")) _ _ _ _ allRead
      (fun token mem => isOpenLiteral_of_mem_dropLast_tokenize (ends.mem_dropLast_of_mem_front mem))
      (fun _ _ _ _ _ => opens) alike
  obtain ⟨noSemicolon, noTrailing⟩ :=
    List.append_eq_nil_iff.1 (lastRead.readIn.eq_nil_of_isOpenLiteral tokens opened)
  have semicolon : last.semicolon = none := by
    cases h : last.semicolon with
    | none => rfl
    | some token =>
        have isSemicolon := lastRead.laid.1.isSemicolon token h
        simp [h, (isPunctuator_iff.1 isSemicolon).2] at noSemicolon
  have added : Alike [] (terminator none (render true last).needsSemicolon ++ closingText) := by
    have line : ';' ∈ barriers ∧ '\n' ∈ barriers := by decide
    cases (render true last).needsSemicolon with
    | true => exact .barrier line.1 _ _
    | false => exact .barrier line.2 _ _
  obtain ⟨before, closing, previous₃, upTo, hlast⟩ :=
    lastRead.readIn.exists_bareAfter_render_of_isOpenLiteral tokens opened kept true added
      (slash last rfl)
  obtain ⟨d, cs, hadded, others⟩ := exists_added upTo.closing (render true last).needsSemicolon
  have scanned := lastRead.readIn.scanned_tokens
  rw [tokens] at scanned
  obtain ⟨⟨c, isMark, more, htext⟩, taken, left, hcs, reads⟩ :=
    (Scanned.append_iff.1 scanned).2.bareAfter_of_isOpenLiteral opened d cs
  have body : Scan.bareAfter previous₁ (renderAll [last] ++
      ((Scan.ofSource source).trailing ++ closingText)) =
      before.map bare ++ Scan.bareAfter previous₃ (literal.text ++ d :: cs) := by
    have trailing : (Scan.ofSource source).trailing = [] := noTrailing
    have text : renderAll [last] ++ ((Scan.ofSource source).trailing ++ closingText) =
        gapOf last.tokens ++ ((render true last).text ++
          (terminator none (render true last).needsSemicolon ++ closingText)) := by
      rw [renderAll, renderAll, renderWithGap, semicolon, trailing]
      simp
    rw [text, Scan.bareAfter_append_of_whole lastRead.readIn.scanned_tokens.whole_gapOf, hlast,
      hadded]
  have whole := map_bare_tokenize_wrap source
  rw [ends.statements, hfront, body, reads] at whole
  refine ⟨before, closing, literal.text ++ d :: taken,
    Scan.bareAfter (some ⟨literal.kind, [], literal.text ++ d :: taken⟩) left, upTo, ?_, ?_⟩
  · rw [whole, wrappedTokens]
    simp only [List.append_assoc]
  · rw [htext] at opened ⊢
    refine fault?_of_isOpenLiteral opened isMark fun e mem => others e ?_
    rw [hcs]
    exact List.mem_append_left left mem

theorem check_wrap_of_isOpenLiteral (ends : EndsOpen source front last final)
    (kept : leavesEndOut last = false) {init : List Token} {literal : Token}
    (tokens : last.tokens = init ++ [literal])
    (opened : Lexeme.isOpenLiteral literal.kind literal.text = true) :
    check (wrap (Scan.ofSource source)) =
      some (if literal.kind = .template then .unexpectedEnd else .openString) := by
  obtain ⟨before, closing, text, rest, upTo, wrapped, broken⟩ :=
    ends.exists_map_bare_tokenize_wrap kept tokens opened
  obtain ⟨inner, hinner⟩ := ends.exists_openAfter?_before upTo opened
  have balanced : openAfter? [] (wrappedTokens (hoisted (front ++ [last]))
      ((bodyTokens [last] front).map bare) (before.map bare)) =
        some (inner ++ [.curly, .round]) := by
    rw [openAfter?_wrappedTokens, openAfter?_append, openAfter?_map_bare,
      (ends.wellNested_front [last]).openAfter?, Option.bind_some, openAfter?_map_bare]
    exact openAfter?_append_outer hinner [.curly, .round]
  rw [check, ← checkWithin_map_bare, wrapped]
  refine checkWithin_append_of_fault (fun token mem => fault?_of_mem_wrappedTokens ?_ mem)
    balanced broken
  rw [List.forall_mem_append]
  constructor
  · intro token mem
    obtain ⟨own, inFront, rfl⟩ := List.mem_map.1 mem
    rw [fault?_bare]
    exact ends.fault?_of_mem_front inFront
  · intro token mem
    obtain ⟨own, inBefore, rfl⟩ := List.mem_map.1 mem
    rw [fault?_bare]
    rcases upTo.own own inBefore with inInit | added
    · refine ends.faultless own (ends.mem_dropLast_of_mem_last ?_)
      rwa [tokens, List.dropLast_concat]
    · exact fault?_eq_none_of_kind added

theorem exists_init (ends : EndsOpen source front last final) {literal : Token}
    (isLast : literal ∈ (tokenize source).getLast?)
    (opened : Lexeme.isOpenLiteral literal.kind literal.text = true) :
    ∃ init, last.tokens = init ++ [literal] := by
  obtain ⟨before, after, placed⟩ := ends.exists_placed_last
  rw [ends.tokens, allTokens, Option.mem_def] at isLast
  cases semicolon : last.semicolon with
  | some token =>
      rw [semicolon, Option.toList_some, ← List.append_assoc, List.getLast?_concat] at isLast
      cases isLast
      rw [(isPunctuator_iff.1 (placed.isSemicolon _ semicolon)).1] at opened
      cases opened
  | none =>
      have nonempty : last.tokens ≠ [] := by
        intro nothing
        have := placed.semicolon_of_empty (placed.empty_iff.2 nothing)
        rw [semicolon] at this
        cases this
      have whole := List.getLast?_eq_some_getLast nonempty
      rw [semicolon, Option.toList_none, List.append_nil, List.getLast?_append, whole,
        Option.some_or, ← whole] at isLast
      obtain ⟨init, hinit⟩ := List.getLast?_eq_some_iff.1 isLast
      exact ⟨init, hinit⟩

end EndsOpen

/-- A source that ends too early leaves a bracket open, or ends in an open template. -/
theorem exists_endsOpen {source : List Char} {front : List Statement} {last : Statement}
    (unfinished : check source = some .unexpectedEnd) (settled : SlashesSettled source)
    (statements : split (tokenize source) = front ++ [last]) :
    ∃ final, EndsOpen source front last final ∧
      ((final ≠ [] ∧ ∀ token ∈ tokenize source, fault? token = none) ∨
        ∃ literal ∈ (tokenize source).getLast?,
          Lexeme.isOpenLiteral literal.kind literal.text = true) := by
  rcases cases_of_checkWithin_eq_unexpectedEnd unfinished with
    ⟨left, literal, right, inner, tokens, faultless, balanced, fault⟩ |
      ⟨faultless, first, outer, balanced⟩
  · have scanned := scanned_tokenize source
    obtain ⟨opened, kind⟩ := scanned.isOpenLiteral_of_unexpectedEnd (by simp [tokens]) fault
    rw [tokens] at scanned
    obtain ⟨rfl, -⟩ := scanned.eq_nil_of_isOpenLiteral opened
    refine ⟨inner, ⟨settled, statements, ?_, ?_⟩, .inr ⟨literal, by simp [tokens], opened⟩⟩
    · rwa [tokens, List.dropLast_concat]
    · have plain : literal.opens? = none ∧ literal.closes? = none := by
        simp [opens?, closes?, kind]
      rw [tokens, openAfter?_append, balanced, Option.bind_some,
        openAfter?_cons_of_plain plain.1 plain.2]
      rfl
  · exact ⟨first :: outer, ⟨settled, statements,
      fun token mem => faultless token ((List.dropLast_sublist _).subset mem), balanced⟩,
      .inl ⟨List.cons_ne_nil _ _, faultless⟩⟩

/-- Whether wrapping leaves out the end of a source. -/
def losesEnd (source : List Char) : Bool :=
  (split (tokenize source)).getLast?.any leavesEndOut

/-- Whether a source ends in quoted text that is not closed. -/
def endsInString (source : List Char) : Bool :=
  (tokenize source).getLast?.any fun token =>
    token.kind == .string && Lexeme.isOpenLiteral token.kind token.text

/-- Whether a source ends in a comment that is not closed. -/
def endsInComment (source : List Char) : Bool :=
  Trivia.opensComment (Scan.ofSource source).trailing

/-- A wrapped source asks for more, as its source does, exactly if its end is neither left
out nor in quoted text, or if its end is left out and a comment after it is open.  It is
complete, and is run, exactly if its end is left out and no comment is open. -/
theorem asksForMore_check_iff {source wrapped : List Char}
    (unfinished : check source = some .unexpectedEnd) (settled : SlashesSettled source)
    (h : wrap? source = some wrapped) :
    ((∃ fault, check wrapped = some fault ∧ ScriptError.asksForMore fault.message = true) ↔
      if losesEnd source then endsInComment source = true else endsInString source = false) ∧
    (check wrapped = none ↔ losesEnd source = true ∧ endsInComment source = false) := by
  obtain ⟨rfl, front, last, statements⟩ := exists_split_of_wrap? h
  obtain ⟨final, ends, cases⟩ := exists_endsOpen unfinished settled statements
  have loses : losesEnd source = leavesEndOut last := by simp [losesEnd, statements]
  have asks : ScriptError.asksForMore Incompleteness.unexpectedEnd.message = true := by decide
  have rejects : ScriptError.asksForMore Incompleteness.openString.message = false := by decide
  rw [loses]
  cases kept : leavesEndOut last with
  | true =>
      rw [ends.check_wrap_of_leavesEndOut kept, endsInComment]
      cases Trivia.opensComment (Scan.ofSource source).trailing <;> simp [asks]
  | false =>
      rw [if_neg Bool.false_ne_true]
      by_cases opened : ∃ literal ∈ (tokenize source).getLast?,
          Lexeme.isOpenLiteral literal.kind literal.text = true
      · obtain ⟨literal, isLast, opened⟩ := opened
        obtain ⟨init, tokens⟩ := ends.exists_init isLast opened
        rw [ends.check_wrap_of_isOpenLiteral kept tokens opened, endsInString, isLast,
          Option.any_some, opened]
        rcases Lexeme.kind_of_isOpenLiteral opened with kind | kind <;>
          simp [kind, asks, rejects]
      · obtain ⟨deeper, faultless⟩ := cases.resolve_right opened
        obtain ⟨fault, hfault, more⟩ :=
          ends.exists_fault_of_kept kept deeper faultless fun _ mem =>
            isOpenLiteral_of_getLast? opened mem
        have noString : endsInString source = false := by
          apply Bool.eq_false_iff.2
          intro inString
          obtain ⟨literal, isLast, both⟩ := (Option.any_eq_true _ _).1 inString
          rw [Bool.and_eq_true] at both
          exact opened ⟨literal, isLast, both.2⟩
        simp [hfault, more, noString]

/-- An unfinished call stays unfinished. -/
theorem asksForMore_check_iff_call :
    (check "await f(".toList = some .unexpectedEnd ∧ SlashesSettled "await f(".toList ∧
      wrap? "await f(".toList = some "(async () => \x7b return (await f();\n \x7d)()".toList) ∧
    ((∃ fault, check "(async () => \x7b return (await f();\n \x7d)()".toList = some fault ∧
        ScriptError.asksForMore fault.message = true) ↔
      if losesEnd "await f(".toList then endsInComment "await f(".toList = true
      else endsInString "await f(".toList = false) ∧
    (check "(async () => \x7b return (await f();\n \x7d)()".toList = none ↔
      losesEnd "await f(".toList = true ∧ endsInComment "await f(".toList = false) := by
  have scanned : Scan.within 4 none "await f(".toList =
      some ⟨[⟨.identifier, [], "await".toList⟩, ⟨.identifier, [' '], ['f']⟩,
        ⟨.punctuator, [], ['(']⟩], []⟩ := by decide
  have tokens := congrArg Scan.tokens (Scan.ofSource_of_within scanned)
  have unfinished : check "await f(".toList = some .unexpectedEnd := by
    rw [check, tokenize, tokens]
    decide
  have settled : SlashesSettled "await f(".toList := by
    apply slashesSettled_of_isSlash
    rw [tokenize, tokens]
    decide
  have wraps : wrap? "await f(".toList =
      some "(async () => \x7b return (await f();\n \x7d)()".toList :=
    wrap?_of_within scanned (by decide) (by decide)
  exact ⟨⟨unfinished, settled, wraps⟩, asksForMore_check_iff unfinished settled wraps⟩

/-- A declarator that is not finished is left out, and what remains is complete. -/
theorem check_wrap?_declarator :
    check "await a; let \x7b".toList = some .unexpectedEnd ∧
      wrap? "await a; let \x7b".toList = some "(async () => \x7b await a; \n \x7d)()".toList ∧
      check "(async () => \x7b await a; \n \x7d)()".toList = none := by
  have scanned : Scan.within 6 none "await a; let \x7b".toList =
      some ⟨[⟨.identifier, [], "await".toList⟩, ⟨.identifier, [' '], ['a']⟩,
        ⟨.punctuator, [], [';']⟩, ⟨.identifier, [' '], ['l', 'e', 't']⟩,
        ⟨.punctuator, [' '], ['\x7b']⟩], []⟩ := by decide
  have statements : split [⟨.identifier, [], "await".toList⟩, ⟨.identifier, [' '], ['a']⟩,
      ⟨.punctuator, [], [';']⟩, ⟨.identifier, [' '], ['l', 'e', 't']⟩,
      ⟨.punctuator, [' '], ['\x7b']⟩] =
      [⟨.expression, [⟨.identifier, [], "await".toList⟩, ⟨.identifier, [' '], ['a']⟩],
          some ⟨.punctuator, [], [';']⟩⟩,
        ⟨.declaration, [⟨.identifier, [' '], ['l', 'e', 't']⟩, ⟨.punctuator, [' '], ['\x7b']⟩],
          none⟩] := by decide
  have names : Pattern.names [⟨.punctuator, [' '], ['\x7b']⟩] = [] := by
    rw [Pattern.names, Pattern.boundTokens, Pattern.readTarget, if_neg (by decide),
      if_pos (by decide), Pattern.readEntries]
    rfl
  have parts : ofTokens? [⟨.identifier, [' '], ['l', 'e', 't']⟩,
      ⟨.punctuator, [' '], ['\x7b']⟩] = some ⟨[], []⟩ := by
    have whole : ofTokens? [⟨.identifier, [' '], ['l', 'e', 't']⟩,
        ⟨.punctuator, [' '], ['\x7b']⟩] =
        some ⟨Pattern.names [⟨.punctuator, [' '], ['\x7b']⟩] ++ [], []⟩ := rfl
    rw [whole, names]
    rfl
  have wraps : wrap? "await a; let \x7b".toList =
      some "(async () => \x7b await a; \n \x7d)()".toList := by
    refine wrap?_of_within scanned (by decide) ?_
    rw [wrap, statements]
    simp [hoisted, declaredNames, renderAll, renderWithGap, render, renderDeclaration, parts,
      hoistedList, terminator, gapOf, textOf, Token.source]
  have scannedAgain : Scan.within 14 none "(async () => \x7b await a; \n \x7d)()".toList =
      some ⟨[⟨.punctuator, [], ['(']⟩, ⟨.identifier, [], "async".toList⟩,
        ⟨.punctuator, [' '], ['(']⟩, ⟨.punctuator, [], [')']⟩, ⟨.punctuator, [' '], "=>".toList⟩,
        ⟨.punctuator, [' '], ['\x7b']⟩, ⟨.identifier, [' '], "await".toList⟩,
        ⟨.identifier, [' '], ['a']⟩, ⟨.punctuator, [], [';']⟩,
        ⟨.punctuator, " \n ".toList, ['\x7d']⟩, ⟨.punctuator, [], [')']⟩,
        ⟨.punctuator, [], ['(']⟩, ⟨.punctuator, [], [')']⟩], []⟩ := by decide
  refine ⟨?_, wraps, ?_⟩
  · rw [check, tokenize, Scan.ofSource_of_within scanned]
    decide
  · rw [check, tokenize, Scan.ofSource_of_within scannedAgain]
    decide

end AsyncWrap

end ScriptConsole

import ScriptConsole.Proofs.AsyncWrap.Rendered
import ScriptConsole.Proofs.Statement.Cuts
import ScriptConsole.Proofs.Suspension.Bodies

/-!
# The tokens of a wrapped source

The new texts of statements stand one after another, and none of them reads on
into the next.  So the tokens of a wrapped source are those of its statements,
between those of the function that wraps them.
-/

namespace ScriptConsole

open Token

namespace AsyncWrap

open Statement

/-- Where slashes stand in statements: not directly after the keyword of a
declaration, nor at the start of a statement directly after a declaration of which
nothing is left. -/
def SlashesApart : List Statement → Prop
  | [] => True
  | statement :: after =>
      (statement.kind = .declaration →
        ∀ second ∈ statement.tokens.tail.head?, second.isSlash = false) ∧
      (isDropped statement = true → statement.semicolon = none → ∀ next ∈ after.head?,
        ∀ first ∈ next.tokens.head?, first.isSlash = false) ∧
      SlashesApart after

/-- The tokens of the new texts of statements that `after` follows. -/
def bodyTokens (after : List Statement) : List Statement → List Token
  | [] => []
  | statement :: rest =>
      statementTokens ((rest ++ after).all (·.kind == .empty)) statement ++ bodyTokens after rest

theorem bodyTokens_append (after left right : List Statement) :
    bodyTokens after (left ++ right) =
      bodyTokens (right ++ after) left ++ bodyTokens after right := by
  induction left with
  | nil => rfl
  | cons statement left ih =>
      rw [List.cons_append, bodyTokens, ih, bodyTokens, List.append_assoc, List.append_assoc]

theorem bodyTokens_concat (front : List Statement) (last : Statement) :
    bodyTokens [] (front ++ [last]) = bodyTokens [last] front ++ statementTokens true last := by
  rw [bodyTokens_append]
  exact congrArg _ (List.append_nil _)

/-- Statements as they were read after the token `previous`, up to the source `rest`. -/
structure AllRead (before : List Token) (previous : Option Token)
    (statements : List Statement) (rest : List Char) : Prop where
  laid : Laid before statements
  scanned : Scanned previous (tokensOf statements) rest
  divides : Divides previous (tokensOf statements)
  apart : SlashesApart statements
  slash : ∀ next ∈ statements.head?, ∀ first ∈ next.tokens.head?, first.isSlash = true →
    Lexeme.allowsRegex previous = true

theorem tokensOf_cons_of_tokens {next : Statement} {first : Token} {more : List Token}
    (h : next.tokens = first :: more) (others : List Statement) :
    tokensOf (next :: others) =
      first :: (more ++ (next.semicolon.toList ++ tokensOf others)) := by
  rw [tokensOf_cons, Statement.allTokens, h]
  simp

theorem continuesExpression_of_slash {token : Token}
    (h : token.isPunctuatorIn ["/", "/="] = true) : continuesExpression token = true := by
  simp only [isPunctuatorIn, Bool.and_eq_true, beq_iff_eq, List.any_cons, List.any_nil,
    Bool.or_false, Bool.or_eq_true] at h
  obtain ⟨kind, text | text⟩ := h <;>
    simp [continuesExpression, kind, isPunctuatorIn, text]

theorem allowsRegex_of_curly {token : Token} (h : token.closesWith .curly = true) :
    Lexeme.allowsRegex (some token) = true := by
  obtain ⟨kind, text⟩ := closes?_eq_some_iff.1 (by simpa [closesWith] using h)
  simp [Lexeme.allowsRegex, kind, isPunctuatorIn, text, Bracket.closing]

namespace AllRead

variable {before : List Token} {previous : Option Token} {statement : Statement}
  {after : List Statement} {rest : List Char}

theorem readIn (allRead : AllRead before previous (statement :: after) rest) :
    ReadIn previous statement (sourceOf (tokensOf after) ++ rest) := by
  have scanned := allRead.scanned
  have divides := allRead.divides
  rw [tokensOf_cons] at scanned divides
  exact {
    scanned := (Scanned.append_iff.1 scanned).1
    divides := (divides_append_iff.1 divides).1
    slash := allRead.slash statement rfl
    keyword := allRead.apart.1 }

theorem apart_renderAll (allRead : AllRead before previous (statement :: after) rest)
    (noSemicolon : statement.semicolon = none) {rest' : List Char} (alike : Alike rest rest') :
    Apart statement.tokens (sourceOf (tokensOf after) ++ rest) (renderAll after ++ rest') := by
  cases after with
  | nil => exact .inr alike
  | cons next others =>
      obtain ⟨last, hlast, ends⟩ := allRead.laid.1.apart noSemicolon next rfl
      rcases ends with closes | ⟨first, hfirst, startsLine, -⟩
      · refine .inl ⟨last, hlast, ?_⟩
        simp only [closesWith, beq_iff_eq] at closes
        rw [isCloser, closes]
        rfl
      · obtain ⟨more, hmore⟩ := List.head?_eq_some_iff.1 hfirst
        have nonempty : first.gap ≠ [] := by
          intro empty
          rw [Token.startsLine, empty] at startsLine
          cases startsLine
        have tokens := tokensOf_cons_of_tokens hmore others
        have scanned := allRead.scanned
        rw [tokensOf_cons, tokens] at scanned
        have alike := (Scanned.append_iff.1 scanned).2.alike_gap nonempty
        refine .inr ?_
        rw [tokens, sourceOf_cons, renderAll, renderWithGap, hmore, gapOf]
        simpa using alike _ _

/-- A slash opens a statement only where it opens a regular expression. -/
theorem allowsRegex_of_slash (allRead : AllRead before previous (statement :: after) rest)
    {next : Statement} (isNext : next ∈ after.head?) {first : Token}
    (isFirst : first ∈ next.tokens.head?) (slash : first.isSlash = true) :
    Lexeme.allowsRegex (statement.allTokens.getLast?.or previous) = true := by
  obtain ⟨others, rfl⟩ := List.head?_eq_some_iff.1 isNext
  obtain ⟨more, hmore⟩ := List.head?_eq_some_iff.1 isFirst
  have scanned := allRead.scanned
  rw [tokensOf_cons, tokensOf_cons_of_tokens hmore others] at scanned
  simp only [isSlash, Bool.or_eq_true, beq_iff_eq] at slash
  rcases slash with regex | mark
  · exact (Scanned.append_iff.1 scanned).2.allowsRegex_of_regex regex
  · cases hsemicolon : statement.semicolon with
    | some token =>
        have last : statement.allTokens.getLast? = some token := by
          simp [Statement.allTokens, hsemicolon]
        rw [last]
        exact allowsRegex_of_isPunctuator (allRead.laid.1.isSemicolon token hsemicolon)
    | none =>
        obtain ⟨last, hlast, ends⟩ := allRead.laid.1.apart hsemicolon next rfl
        have hlast' : statement.allTokens.getLast? = some last := by
          rw [Statement.allTokens, hsemicolon, Option.toList_none, List.append_nil]
          exact hlast
        rw [hlast']
        rcases ends with closes | ⟨first', isFirst', -, breaks⟩
        · exact allowsRegex_of_curly closes
        · rw [breaksBetween, Bool.and_eq_true, Option.mem_unique isFirst' isFirst,
            continuesExpression_of_slash mark] at breaks
          cases breaks.2

theorem tail (allRead : AllRead before previous (statement :: after) rest) :
    AllRead (before ++ statement.allTokens) (statement.allTokens.getLast?.or previous) after
      rest := by
  have scanned := allRead.scanned
  have divides := allRead.divides
  rw [tokensOf_cons] at scanned divides
  exact {
    laid := allRead.laid.2
    scanned := (Scanned.append_iff.1 scanned).2
    divides := (divides_append_iff.1 divides).2
    apart := allRead.apart.2.2
    slash := fun next isNext first isFirst slash =>
      allRead.allowsRegex_of_slash isNext isFirst slash }

/-- After the new text of a statement a slash may open the next one. -/
theorem allowsRegex_after (allRead : AllRead before previous (statement :: after) rest)
    {previous' previous'' : Option Token}
    (ends : Lexeme.allowsRegex previous'' = true ∨ statement.semicolon = none ∧
      (isDropped statement = true ∧ previous'' = previous' ∨
        previous'' = statement.tokens.getLast?.or previous')) :
    ∀ next ∈ after.head?, ∀ first ∈ next.tokens.head?, first.isSlash = true →
      Lexeme.allowsRegex previous'' = true := by
  intro next isNext first isFirst slash
  rcases ends with allows | ⟨noSemicolon, ⟨dropped, -⟩ | rfl⟩
  · exact allows
  · have := allRead.apart.2.1 dropped noSemicolon next isNext first isFirst
    rw [slash] at this
    cases this
  · have nonempty : statement.tokens ≠ [] := by
      intro empty
      have := allRead.laid.1.semicolon_of_empty (allRead.laid.1.empty_iff.2 empty)
      rw [noSemicolon] at this
      cases this
    have allows := allRead.allowsRegex_of_slash isNext isFirst slash
    rw [Statement.allTokens, noSemicolon, Option.toList_none, List.append_nil,
      List.getLast?_eq_some_getLast nonempty] at allows
    rw [List.getLast?_eq_some_getLast nonempty]
    exact allows

end AllRead

/-- The new texts of the statements in `front` are scanned as their tokens, if their
literals are closed. -/
theorem exists_bareAfter_renderAll {before : List Token} {previous previous' : Option Token}
    {front last : List Statement} {rest rest' : List Char}
    (allRead : AllRead before previous (front ++ last) rest)
    (closed : ∀ token ∈ tokensOf front, Lexeme.isOpenLiteral token.kind token.text = false)
    (slash : ∀ next ∈ (front ++ last).head?, ∀ first ∈ next.tokens.head?,
      first.isSlash = true → Lexeme.allowsRegex previous' = true)
    (alike : Alike rest rest') :
    ∃ previous'', Scan.bareAfter previous' (renderAll (front ++ last) ++ rest') =
        (bodyTokens last front).map bare ++
          Scan.bareAfter previous'' (renderAll last ++ rest') ∧
      (∃ before' between, AllRead before' between last rest) ∧
      ∀ next ∈ last.head?, ∀ first ∈ next.tokens.head?, first.isSlash = true →
        Lexeme.allowsRegex previous'' = true := by
  induction front generalizing before previous previous' with
  | nil => exact ⟨previous', rfl, ⟨before, previous, allRead⟩, slash⟩
  | cons statement front ih =>
      rw [List.cons_append] at allRead slash ⊢
      rw [tokensOf_cons, List.forall_mem_append] at closed
      have closedTokens : ∀ token ∈ statement.tokens,
          Lexeme.isOpenLiteral token.kind token.text = false :=
        fun token mem => closed.1 token (List.mem_append_left _ mem)
      obtain ⟨previous₁, hstatement, ends⟩ :=
        allRead.readIn.exists_bareAfter_renderWithGap allRead.laid.1.isSemicolon
          ((front ++ last).all (·.kind == .empty)) (slash statement rfl)
          (fun noSemicolon => allRead.apart_renderAll noSemicolon alike)
          fun token mem => isOpenLiteral_of_mem_renderedTokens closedTokens mem
      obtain ⟨previous₂, hfront, hlast, allows⟩ :=
        ih allRead.tail closed.2 (allRead.allowsRegex_after ends)
      refine ⟨previous₂, ?_, hlast, allows⟩
      rw [renderAll, List.append_assoc, hstatement, hfront, bodyTokens, List.map_append,
        List.append_assoc]

theorem mem_of_mem_foldl_pushUnique {names more : List (List Char)} {name : List Char}
    (mem : name ∈ more.foldl pushUnique names) : name ∈ names ∨ name ∈ more := by
  induction more generalizing names with
  | nil => exact .inl mem
  | cons other more ih =>
      rcases ih mem with earlier | later
      · unfold pushUnique at earlier
        split at earlier
        · exact .inl earlier
        · rcases List.mem_append.1 earlier with inNames | isOther
          · exact .inl inNames
          · exact .inr (List.mem_cons.2 (.inl (List.mem_singleton.1 isOther)))
      · exact .inr (List.mem_cons_of_mem _ later)

/-- Hoisted names are identifiers of the statements that declare them. -/
theorem exists_mem_of_mem_hoisted {statements : List Statement} {name : List Char}
    (mem : name ∈ hoisted statements) :
    ∃ token ∈ tokensOf statements, token.isIdentifier = true ∧ name = token.text := by
  have declared := (mem_of_mem_foldl_pushUnique mem).resolve_left List.not_mem_nil
  obtain ⟨statement, hstatement, hname⟩ := List.mem_flatMap.1 declared
  have own : ∃ token ∈ statement.tokens, token.isIdentifier = true ∧ name = token.text := by
    unfold declaredNames at hname
    split at hname
    · cases parts : Declaration.ofTokens? statement.tokens with
      | none => simp [parts] at hname
      | some declaration =>
          rw [parts] at hname
          exact Declaration.exists_mem_of_ofTokens? parts hname
    · exact Declaration.exists_mem_of_declaredName? (Option.mem_toList.1 hname)
    · exact Declaration.exists_mem_of_declaredName? (Option.mem_toList.1 hname)
    · cases hname
  obtain ⟨token, htoken, found⟩ := own
  exact ⟨token, mem_tokensOf hstatement htoken, found⟩

/-- The tokens of the `var` list of hoisted names. -/
def hoistedTokens : List (List Char) → List Token
  | [] => []
  | names => word "var" ::
      (List.intercalate [mark ","] (names.map fun name => [⟨.identifier, [], name⟩]) ++ [mark ";"])

/-- The tokens that open the function around a wrapped source. -/
def openingTokens : List Token :=
  [mark "(", word "async", mark "(", mark ")", mark "=>", mark "\x7b"]

/-- The tokens that close the function around a wrapped source and call it. -/
def closingTokens : List Token :=
  [mark "\x7d", mark ")", mark "(", mark ")"]

/-- The tokens of a wrapped source, given those of its statements and what follows them. -/
def wrappedTokens (names : List (List Char)) (body rest : List Token) : List Token :=
  hoistedTokens names ++ openingTokens ++ (body ++ rest)

theorem bareAfter_hoistedList {names : List (List Char)}
    (areNames : ∀ name ∈ names, IsName name) (previous : Option Token) {c : Char}
    (lone : c ∈ Lexeme.loneMarks) (cs : List Char) :
    Scan.bareAfter previous (hoistedList names ++ c :: cs) =
      hoistedTokens names ++
        ⟨.punctuator, [], [c]⟩ :: Scan.bareAfter (some ⟨.punctuator, [], [c]⟩) cs := by
  cases names with
  | nil => exact Scan.bareAfter_lone lone previous cs
  | cons first others =>
      have var : IsName "var".toList := @isName_of_all 'v' "ar".toList rfl rfl
      have single : ∀ d ∈ [',', ';'], ∀ name ∈ first :: others,
          Spells (fun _ => True) d name [⟨.identifier, [], name⟩] := by
        intro d hd name mem previous _ cs
        have ends : ∀ d ∈ [',', ';'], d ∈ barriers ∧ d ∈ Lexeme.loneMarks :=
          forall_mem_of_all (by decide)
        rw [Scan.bareAfter_name (areNames name mem) (ends d hd).1,
          Scan.bareAfter_lone (ends d hd).2]
        rfl
      have names := @spells_intercalate _ (fun _ => True) ';' (fun name => name)
        (fun name => [⟨.identifier, [], name⟩]) trivial _ (List.cons_ne_nil first others)
        (fun name mem => ⟨single ',' (by decide) name mem, single ';' (by decide) name mem⟩)
        (some (word "var")) trivial (' ' :: c :: cs)
      rw [Scan.bareAfter_space, Scan.bareAfter_lone lone] at names
      have whole := (bareAfter_word var previous _).trans (congrArg (word "var" :: ·) names)
      simpa [hoistedList, hoistedTokens, mark] using whole

theorem bareAfter_arrow (previous : Option Token) (cs : List Char) :
    Scan.bareAfter previous ('=' :: '>' :: ' ' :: cs) =
      mark "=>" :: Scan.bareAfter (some (mark "=>")) cs := by
  have read : Lexeme.read previous '=' ('>' :: ' ' :: cs) =
      ⟨.punctuator, ['>'], ' ' :: cs⟩ := rfl
  have split : Trivia.split .between ('=' :: '>' :: ' ' :: cs) =
      ([], '=' :: '>' :: ' ' :: cs) := rfl
  have first := Scan.bareAfter_of_split split previous read
  rwa [Scan.bareAfter_space] at first

theorem bareAfter_opening (previous : Option Token) (cs : List Char) :
    Scan.bareAfter previous ("(async () => \x7b ".toList ++ cs) =
      openingTokens ++ Scan.bareAfter (some (mark "\x7b")) cs := by
  have async : IsName "async".toList := @isName_of_all 'a' "sync".toList rfl rfl
  have text : "(async () => \x7b ".toList ++ cs =
      '(' :: ("async".toList ++ ' ' :: '(' :: ')' :: ' ' :: '=' :: '>' :: ' ' :: '\x7b' ::
        ' ' :: cs) := by
    simp
  rw [text, Scan.bareAfter_lone (by decide), bareAfter_word async,
    Scan.bareAfter_lone (by decide), Scan.bareAfter_lone (by decide), Scan.bareAfter_space,
    bareAfter_arrow, Scan.bareAfter_lone (by decide), Scan.bareAfter_space]
  rfl

theorem bareAfter_closing (previous : Option Token) :
    Scan.bareAfter previous " \x7d)()".toList = closingTokens := by
  have text : " \x7d)()".toList = [' ', '\x7d', ')', '(', ')'] := by simp
  have nothing : ∀ previous : Option Token, Scan.bareAfter previous [] = [] := by
    intro previous
    rw [Scan.bareAfter, Scan.after_of_split_eq_nil rfl]
    rfl
  rw [text, Scan.bareAfter_space, Scan.bareAfter_lone (by decide),
    Scan.bareAfter_lone (by decide), Scan.bareAfter_lone (by decide),
    Scan.bareAfter_lone (by decide), nothing]
  rfl

/-- A source whose slashes are read the same in other surroundings: none that divides
stands where a regular expression may, none directly follows the keyword of a
declaration, and none opens a statement directly after a declaration of which nothing
is left. -/
structure SlashesSettled (source : List Char) : Prop where
  divides : Divides none (tokenize source)
  apart : SlashesApart (split (tokenize source))

theorem divides_of_isSlash {previous : Option Token} {tokens : List Token}
    (noSlash : ∀ token ∈ tokens, token.isSlash = false) : Divides previous tokens := by
  induction tokens generalizing previous with
  | nil => trivial
  | cons token tokens ih =>
      rw [List.forall_mem_cons] at noSlash
      refine ⟨fun slash => ?_, ih noSlash.2⟩
      have := noSlash.1
      rw [isSlash, slash, Bool.or_true] at this
      cases this

theorem slashesApart_of_isSlash {statements : List Statement}
    (noSlash : ∀ token ∈ tokensOf statements, token.isSlash = false) :
    SlashesApart statements := by
  induction statements with
  | nil => trivial
  | cons statement after ih =>
      rw [tokensOf_cons, List.forall_mem_append] at noSlash
      refine ⟨?_, ?_, ih noSlash.2⟩
      · intro _ second mem
        refine noSlash.1 second (List.mem_append_left _ ?_)
        exact (List.tail_sublist _).subset (List.mem_of_mem_head? mem)
      · intro _ _ next isNext first isFirst
        exact noSlash.2 first
          (mem_tokensOf (List.mem_of_mem_head? isNext) (List.mem_of_mem_head? isFirst))

/-- Where no slash is a token of its own or opens one, none is read otherwise. -/
theorem slashesSettled_of_isSlash {source : List Char}
    (noSlash : ∀ token ∈ tokenize source, token.isSlash = false) : SlashesSettled source where
  divides := divides_of_isSlash noSlash
  apart := by
    apply slashesApart_of_isSlash
    rwa [tokensOf_split]

theorem allRead_split {source : List Char} (settled : SlashesSettled source) :
    AllRead [] none (split (tokenize source)) (Scan.ofSource source).trailing where
  laid := laid_split _
  scanned := by
    rw [tokensOf_split]
    exact scanned_tokenize source
  divides := by
    rw [tokensOf_split]
    exact settled.divides
  apart := settled.apart
  slash := fun _ _ _ _ _ => rfl

theorem isName_of_mem_hoisted {source name : List Char}
    (mem : name ∈ hoisted (split (tokenize source))) : IsName name := by
  obtain ⟨token, htoken, identifier, rfl⟩ := exists_mem_of_mem_hoisted mem
  rw [tokensOf_split] at htoken
  exact (scanned_tokenize source).isName htoken identifier

/-- The end of the function around a wrapped source. -/
def closingText : List Char :=
  "\n \x7d)()".toList

theorem closingText_eq : closingText = '\n' :: " \x7d)()".toList := rfl

/-- The function around a wrapped source is opened by tokens of its own. -/
theorem map_bare_tokenize_wrap (source : List Char) :
    (tokenize (wrap (Scan.ofSource source))).map bare =
      hoistedTokens (hoisted (split (tokenize source))) ++ openingTokens ++
        Scan.bareAfter (some (mark "\x7b")) (renderAll (split (tokenize source)) ++
          ((Scan.ofSource source).trailing ++ closingText)) := by
  have front := bareAfter_hoistedList
    (fun name (mem : name ∈ hoisted (split (tokenize source))) => isName_of_mem_hoisted mem)
    none (by decide : '(' ∈ Lexeme.loneMarks)
  have whole : wrap (Scan.ofSource source) =
      hoistedList (hoisted (split (tokenize source))) ++ '(' :: ("async () => \x7b ".toList ++
        (renderAll (split (tokenize source)) ++
          ((Scan.ofSource source).trailing ++ closingText))) := by
    simp [wrap, tokenize, closingText]
  have opening := bareAfter_opening none (renderAll (split (tokenize source)) ++
    ((Scan.ofSource source).trailing ++ closingText))
  have first := Scan.bareAfter_lone (by decide : '(' ∈ Lexeme.loneMarks) none
    ("async () => \x7b ".toList ++ (renderAll (split (tokenize source)) ++
      ((Scan.ofSource source).trailing ++ closingText)))
  rw [List.append_assoc, ← opening]
  refine Eq.trans ?_ (congrArg (_ ++ ·) first.symm)
  rw [← front, ← whole]
  rfl

/-- An open comment in the gap that ends a source takes all that follows and does not
close it. -/
theorem bareAfter_trailing_of_opensComment {source cs : List Char}
    (opened : Trivia.opensComment (Scan.ofSource source).trailing = true)
    (never : (Trivia.split .blockComment cs).2 = []) (previous : Option Token) :
    Scan.bareAfter previous ((Scan.ofSource source).trailing ++ '\n' :: cs) = [] := by
  have ends : (Trivia.split .between (Scan.ofSource source).trailing).2 = [] :=
    split_trailing_after none source
  have nothing : (Trivia.split .between
      ((Scan.ofSource source).trailing ++ '\n' :: cs)).2 = [] :=
    (congrArg Prod.snd (Trivia.split_append_line_of_opensComment ends opened cs)).trans never
  rw [Scan.bareAfter, Scan.after_of_split_eq_nil nothing]
  rfl

/-- After the gap that ends a source comes the end of the function around it, unless a
comment in the gap is open. -/
theorem bareAfter_trailing (source : List Char) (previous : Option Token) :
    Scan.bareAfter previous ((Scan.ofSource source).trailing ++ closingText) =
      if Trivia.opensComment (Scan.ofSource source).trailing then [] else closingTokens := by
  have ends : (Trivia.split .between (Scan.ofSource source).trailing).2 = [] :=
    split_trailing_after none source
  rw [closingText_eq]
  split
  · rename_i opened
    exact bareAfter_trailing_of_opensComment opened rfl previous
  · rename_i closed
    have whole : Trivia.Whole ((Scan.ofSource source).trailing ++ ['\n']) := by
      intro cs
      have line := Trivia.split_append_line ends (Bool.eq_false_iff.2 closed) cs
      simpa using line
    have text : (Scan.ofSource source).trailing ++ '\n' :: " \x7d)()".toList =
        (Scan.ofSource source).trailing ++ ['\n'] ++ " \x7d)()".toList := by
      simp
    rw [text, Scan.bareAfter_append_of_whole whole, bareAfter_closing]

/-- A line break ends the last token of a source as its end does. -/
theorem alike_trailing (source cs : List Char) :
    Alike (Scan.ofSource source).trailing ((Scan.ofSource source).trailing ++ '\n' :: cs) := by
  have line : '\n' ∈ barriers := by decide
  have ends : (Trivia.split .between (Scan.ofSource source).trailing).2 = [] :=
    split_trailing_after none source
  have whole := Trivia.split_append .between (Scan.ofSource source).trailing
  by_cases empty : (Scan.ofSource source).trailing = []
  · rw [empty]
    exact .barrier line _ _
  · have split : Trivia.split .between ((Scan.ofSource source).trailing ++ []) =
        ((Scan.ofSource source).trailing, []) := by
      rw [List.append_nil]
      refine Prod.ext ?_ ends
      rw [ends, List.append_nil] at whole
      exact whole
    have alike := alike_of_split empty split [] ('\n' :: cs)
    rw [List.append_nil] at alike
    exact alike

/-- A wrapped source is scanned as the tokens of its statements inside those of the
function around them, if no literal in it is open. -/
theorem map_bare_tokenize_wrap_of_closed {source : List Char} {front : List Statement}
    {last : Statement} (settled : SlashesSettled source)
    (statements : split (tokenize source) = front ++ [last])
    (closedFront : ∀ token ∈ tokensOf front, Lexeme.isOpenLiteral token.kind token.text = false)
    (closedLast : ∀ token ∈ renderedTokens true last,
      Lexeme.isOpenLiteral token.kind token.text = false) :
    (tokenize (wrap (Scan.ofSource source))).map bare =
      wrappedTokens (hoisted (split (tokenize source)))
        ((bodyTokens [] (front ++ [last])).map bare)
        (if Trivia.opensComment (Scan.ofSource source).trailing then [] else closingTokens) := by
  have allRead := allRead_split settled
  have alike := alike_trailing source " \x7d)()".toList
  rw [← closingText_eq] at alike
  have opens : Lexeme.allowsRegex (some (mark "\x7b")) = true := rfl
  rw [statements] at allRead
  obtain ⟨previous₁, hfront, ⟨before, previous₂, lastRead⟩, slash⟩ :=
    @exists_bareAfter_renderAll _ _ (some (mark "\x7b")) _ _ _ _ allRead closedFront
      (fun _ _ _ _ _ => opens) alike
  obtain ⟨previous₃, hlast, -⟩ := lastRead.readIn.exists_bareAfter_renderWithGap
    lastRead.laid.1.isSemicolon true (slash last rfl)
    (fun noSemicolon => lastRead.apart_renderAll noSemicolon alike) closedLast
  have single : renderAll [last] = renderWithGap true last := List.append_nil _
  rw [map_bare_tokenize_wrap, statements, hfront, single]
  rw [renderAll, List.nil_append] at hlast
  rw [hlast, bareAfter_trailing, bodyTokens_concat, List.map_append, wrappedTokens]
  simp only [List.append_assoc]

theorem wrap?_of_within {bound : Nat} {source wrapped : List Char} {scan : Scan}
    (scanned : Scan.within bound none source = some scan)
    (found : Suspension.found [] .outermost none scan.tokens = true)
    (wraps : wrap scan = wrapped) : wrap? source = some wrapped := by
  rw [wrap?, Scan.ofSource_of_within scanned, Suspension.suspends_eq_found, found, ← wraps]
  rfl

theorem exists_split_of_wrap? {source wrapped : List Char} (h : wrap? source = some wrapped) :
    wrapped = wrap (Scan.ofSource source) ∧
      ∃ front last, split (tokenize source) = front ++ [last] := by
  simp only [wrap?, Option.ite_none_right_eq_some, Option.some.injEq] at h
  obtain ⟨suspends, rfl⟩ := h
  refine ⟨rfl, ?_⟩
  cases hlast : (split (tokenize source)).getLast? with
  | some last =>
      obtain ⟨front, hfront⟩ := List.getLast?_eq_some_iff.1 hlast
      exact ⟨front, last, hfront⟩
  | none =>
      have tokens := tokensOf_split (tokenize source)
      rw [List.getLast?_eq_none_iff.1 hlast] at tokens
      change [] = (Scan.ofSource source).tokens at tokens
      rw [← tokens, Suspension.suspends, Suspension.suspendsAfter_nil] at suspends
      cases suspends

end AsyncWrap

end ScriptConsole

import ScriptConsole.Proofs.AsyncWrap.Body
import ScriptConsole.Proofs.Completeness

/-!
# The brackets of a wrapped source

The parts of a source that wrapping moves are well nested, but for the last of
them, which may leave brackets open.  So every statement but the last stays well
nested, and the last leaves open what it left open, unless wrapping leaves out the
declarator in which it did.
-/

namespace ScriptConsole

open Token

@[simp] theorem openAfter?_map_bare (brackets : List Bracket) (tokens : List Token) :
    openAfter? brackets (tokens.map bare) = openAfter? brackets tokens := by
  induction tokens generalizing brackets with
  | nil => rfl
  | cons token rest ih => simp only [List.map_cons, openAfter?, opens?_bare, closes?_bare, ih]

@[simp] theorem surplus_map_bare (tokens : List Token) :
    surplus (tokens.map bare) = surplus tokens := by
  induction tokens with
  | nil => rfl
  | cons token rest ih =>
      rw [List.map_cons, surplus, surplus, ih]
      rfl

namespace Completeness

theorem fault?_eq_none_of_kind {token : Token}
    (h : token.kind = .identifier ∨ token.kind = .punctuator) : fault? token = none := by
  rcases h with kind | kind <;> simp [fault?, kind]

end Completeness

namespace Declaration

/-- The declarators of a declaration are well nested, but for the last one. -/
theorem nested_of_partsAtTop {tokens last : List Token} {front : List (List Token)}
    {final : List Bracket} (h : openAfter? [] tokens = some final)
    (parts : partsAtTop "," 0 tokens = front ++ [last]) :
    (∀ part ∈ front, WellNested part) ∧ openAfter? [] last = some final := by
  induction front generalizing tokens with
  | nil =>
      rcases cases_of_partsAtTop parts with ⟨rfl, -⟩ | ⟨comma, rest, -, -, -, hrest⟩
      · exact ⟨by simp, h⟩
      · exact absurd hrest (partsAtTop_ne_nil _ _ _)
  | cons part front ih =>
      rcases cases_of_partsAtTop parts with
        ⟨-, nothing⟩ | ⟨comma, rest, rfl, isComma, outside, hrest⟩
      · cases front <;> cases nothing
      · obtain ⟨nested, htail⟩ := wellNested_of_depthOf h outside
        have plain := plain_of_isPunctuator (by simp) isComma
        rw [openAfter?_cons_of_plain plain.1 plain.2] at htail
        obtain ⟨further, hlast⟩ := ih htail hrest
        exact ⟨List.forall_mem_cons.2 ⟨nested, further⟩, hlast⟩

def isBare (declarator : List Token) : Bool :=
  (splitAtTop? "=" 0 declarator).isNone

/-- Whether the last declarator of a declaration has no initializer. -/
def endsBare (tokens : List Token) : Bool :=
  (partsAtTop "," 0 tokens.tail).getLast?.any isBare

end Declaration

namespace AsyncWrap

open Declaration Statement

theorem openAfter?_assignmentTokens {assignment : Assignment} {final : List Bracket}
    (pattern : WellNested assignment.pattern)
    (initializer : openAfter? [] assignment.initializer = some final) :
    openAfter? [] (assignmentTokens assignment) = some final := by
  rw [assignmentTokens, openAfter?_append, pattern.openAfter?, Option.bind_some,
    openAfter?_cons_of_plain rfl rfl, initializer]

/-- A declarator leaves open what its assignment leaves open, if it has one. -/
theorem openAfter?_of_ofDeclarator? {declarator : List Token} {single : Declaration}
    {final : List Bracket} (h : openAfter? [] declarator = some final)
    (parts : ofDeclarator? declarator = some single) :
    openAfter? [] (assignmentsTokens single.assignments) =
      some (if isBare declarator then [] else final) := by
  have nested : ∀ {pattern initializer : List Token},
      splitAtTop? "=" 0 declarator = some (pattern, initializer) →
      WellNested pattern ∧ openAfter? [] initializer = some final := by
    intro pattern initializer hsplit
    obtain ⟨equals, rfl, isEquals, outside⟩ := eq_append_of_splitAtTop? hsplit
    obtain ⟨hpattern, htail⟩ := wellNested_of_depthOf h outside
    have plain := plain_of_isPunctuator (by simp) isEquals
    rw [openAfter?_cons_of_plain plain.1 plain.2] at htail
    exact ⟨hpattern, htail⟩
  unfold ofDeclarator? at parts
  split at parts
  · rename_i hsplit
    cases parts
    rw [isBare, hsplit]
    rfl
  · cases parts
  · rename_i hsplit
    cases parts
    have ends := (nested hsplit).2
    rw [isBare, hsplit]
    exact ends
  · rename_i hsplit
    cases parts
    rw [isBare, hsplit, assignmentsTokens_singleton]
    exact openAfter?_assignmentTokens (nested hsplit).1 (nested hsplit).2

theorem assignmentsTokens_append {left right : List Assignment} (hleft : left ≠ [])
    (hright : right ≠ []) :
    assignmentsTokens (left ++ right) =
      assignmentsTokens left ++ mark "," :: assignmentsTokens right := by
  induction left with
  | nil => exact absurd rfl hleft
  | cons first others ih =>
      cases others with
      | nil =>
          obtain ⟨next, more, rfl⟩ := List.exists_cons_of_ne_nil hright
          rw [assignmentsTokens_singleton, List.singleton_append, assignmentsTokens_cons_cons]
      | cons next more =>
          have further := ih (List.cons_ne_nil _ _)
          rw [List.cons_append] at further
          rw [List.cons_append, List.cons_append, assignmentsTokens_cons_cons,
            assignmentsTokens_cons_cons, further, List.append_assoc, List.cons_append]

theorem openAfter?_assignmentsTokens_append {left right : List Assignment}
    {final : List Bracket} (nested : openAfter? [] (assignmentsTokens left) = some [])
    (h : openAfter? [] (assignmentsTokens right) = some final) :
    openAfter? [] (assignmentsTokens (left ++ right)) = some final := by
  by_cases hleft : left = []
  · rwa [hleft, List.nil_append]
  · by_cases hright : right = []
    · rw [hright] at h ⊢
      rw [List.append_nil, nested]
      exact h
    · rw [assignmentsTokens_append hleft hright, openAfter?_append, nested, Option.bind_some,
        openAfter?_cons_of_plain rfl rfl, h]

theorem openAfter?_of_ofDeclarators? {front : List (List Token)} {last : List Token}
    {declaration : Declaration} {final : List Bracket}
    (nested : ∀ part ∈ front, WellNested part) (h : openAfter? [] last = some final)
    (parts : ofDeclarators? (front ++ [last]) = some declaration) :
    openAfter? [] (assignmentsTokens declaration.assignments) =
      some (if isBare last then [] else final) := by
  induction front generalizing declaration with
  | nil =>
      obtain ⟨single, -, hsingle, ⟨⟩, rfl⟩ := exists_of_ofDeclarators?_cons parts
      simpa [Declaration.append] using openAfter?_of_ofDeclarator? h hsingle
  | cons part front ih =>
      rw [List.forall_mem_cons] at nested
      rw [List.cons_append] at parts
      obtain ⟨single, others, hsingle, hothers, rfl⟩ := exists_of_ofDeclarators?_cons parts
      have first := openAfter?_of_ofDeclarator? (nested.1.openAfter? []) hsingle
      rw [ite_self] at first
      exact openAfter?_assignmentsTokens_append first (ih nested.2 hothers)

/-- The assignments of a declaration leave open what the declaration leaves open, unless
its last declarator makes none. -/
theorem openAfter?_of_ofTokens? {tokens : List Token} {declaration : Declaration}
    {final : List Bracket} (h : openAfter? [] tokens.tail = some final)
    (parts : ofTokens? tokens = some declaration) :
    openAfter? [] (assignmentsTokens declaration.assignments) =
      some (if endsBare tokens then [] else final) := by
  rw [ofTokens?] at parts
  rw [endsBare]
  cases hlast : (partsAtTop "," 0 tokens.tail).getLast? with
  | none => exact absurd (List.getLast?_eq_none_iff.1 hlast) (partsAtTop_ne_nil _ _ _)
  | some last =>
      obtain ⟨front, hparts⟩ := List.getLast?_eq_some_iff.1 hlast
      obtain ⟨nested, ends⟩ := nested_of_partsAtTop h hparts
      rw [hparts] at parts
      exact openAfter?_of_ofDeclarators? nested ends parts

/-- Whether wrapping leaves out the end of a statement. -/
def leavesEndOut (statement : Statement) : Bool :=
  statement.kind == .declaration && (ofTokens? statement.tokens).isSome &&
    endsBare statement.tokens

theorem leavesEndOut_eq_false {statement : Statement}
    (whole : statement.kind = .declaration → ofTokens? statement.tokens = none) :
    leavesEndOut statement = false := by
  by_cases kind : statement.kind = .declaration
  · simp [leavesEndOut, whole kind]
  · simp [leavesEndOut, kind]

theorem leavesEndOut_eq_endsBare {statement : Statement} {declaration : Declaration}
    (kind : statement.kind = .declaration)
    (parts : ofTokens? statement.tokens = some declaration) :
    leavesEndOut statement = endsBare statement.tokens := by
  simp [leavesEndOut, kind, parts]

theorem isIdentifier_of_declaration {before more : List Token} {statement : Statement}
    {after : List Statement} (placed : Placed before statement after) {keyword : Token}
    (tokens : statement.tokens = keyword :: more) (kind : statement.kind = .declaration) :
    keyword.isIdentifier = true := by
  have h := placed.kind_eq keyword more tokens
  rw [kind, kindOf] at h
  split at h
  · cases h
  · split at h
    · assumption
    · cases h

/-- The new text of a statement leaves open what is left of the statement, or that is
in round brackets. -/
theorem openAfter?_renderedTokens {before : List Token} {statement : Statement}
    {after : List Statement} (placed : Placed before statement after)
    {final : List Bracket} (h : openAfter? [] statement.tokens = some final) (isLast : Bool) :
    openAfter? [] (renderedTokens isLast statement) =
        some (if leavesEndOut statement then [] else final) ∨
      ∃ opening inner, renderedTokens isLast statement = enclosed opening inner ∧
        openAfter? [] inner = some (if leavesEndOut statement then [] else final) := by
  have declared : ∀ {declaration : Declaration}, statement.kind = .declaration →
      ofTokens? statement.tokens = some declaration →
      openAfter? [] (assignmentsTokens declaration.assignments) =
        some (if leavesEndOut statement then [] else final) := by
    intro declaration kind parts
    rw [leavesEndOut_eq_endsBare kind parts]
    refine openAfter?_of_ofTokens? ?_ parts
    cases tokens : statement.tokens with
    | nil => rwa [tokens] at h
    | cons keyword more =>
        have plain := plain_of_isIdentifier (isIdentifier_of_declaration placed tokens kind)
        rwa [tokens, openAfter?_cons_of_plain plain.1 plain.2] at h
  cases renders isLast statement with
  | verbatim whole rendered tokens =>
      rw [leavesEndOut_eq_false whole, tokens]
      exact .inl h
  | named kind found rendered tokens =>
      rw [leavesEndOut_eq_false fun declares => absurd declares kind, tokens,
        openAfter?_cons_of_plain rfl rfl, openAfter?_cons_of_plain rfl rfl]
      exact .inl h
  | dropped kind parts nothing rendered tokens =>
      have left := declared kind parts
      rw [nothing] at left
      rw [tokens]
      exact .inl left
  | assignments kind parts nonempty rendered tokens =>
      exact .inr ⟨"void", _, tokens, declared kind parts⟩
  | value kind rendered tokens =>
      rw [leavesEndOut_eq_false (by simp [kind])]
      exact .inr ⟨"return", _, tokens, h⟩

theorem openAfter?_enclosed {inner : List Token} {brackets : List Bracket} (opening : String)
    (nested : WellNested inner) :
    openAfter? brackets (enclosed opening inner) = some brackets := by
  rw [enclosed, openAfter?_cons_of_plain rfl rfl,
    @openAfter?_cons_of_opens (mark "(") .round rfl, openAfter?_append,
    nested.openAfter?, Option.bind_some, @openAfter?_cons_of_closes (mark ")") .round rfl,
    close?_self]
  rfl

/-- A statement whose rest is well nested has a well-nested new text. -/
theorem wellNested_statementTokens {before : List Token} {statement : Statement}
    {after : List Statement} (placed : Placed before statement after)
    {final : List Bracket} (h : openAfter? [] statement.tokens = some final)
    (closed : leavesEndOut statement = true ∨ final = []) (isLast : Bool) :
    WellNested (statementTokens isLast statement) := by
  have nothing : (if leavesEndOut statement then [] else final) = [] := by
    rcases closed with out | rfl
    · rw [if_pos out]
    · exact ite_self _
  have cases := openAfter?_renderedTokens placed h isLast
  rw [nothing] at cases
  have rendered : WellNested (renderedTokens isLast statement) := by
    rcases cases with same | ⟨opening, inner, hinner, nested⟩
    · exact (wellNested_iff _).2 same
    · rw [hinner, wellNested_iff]
      exact openAfter?_enclosed opening ((wellNested_iff _).2 nested)
  refine rendered.append ?_
  split
  · exact .plain rfl rfl .nil
  · exact .nil

/-- A statement ends as deep in brackets as before, unless its end is left out. -/
theorem surplus_statementTokens {before : List Token} {statement : Statement}
    {after : List Statement} (placed : Placed before statement after)
    {final : List Bracket} (h : openAfter? [] statement.tokens = some final)
    (kept : leavesEndOut statement = false) (isLast : Bool) :
    surplus (statementTokens isLast statement) = final.length := by
  have rendered : surplus (renderedTokens isLast statement) = final.length := by
    rcases openAfter?_renderedTokens placed h isLast with same | ⟨opening, inner, hinner, nested⟩
    · rw [kept] at same
      simpa using (length_of_openAfter? same).symm
    · rw [kept] at nested
      have depth := length_of_openAfter? nested
      rw [hinner, enclosed, surplus, surplus, surplus_append]
      have ends : surplus [mark ")"] = -1 := rfl
      have word : (word opening).isOpener = false ∧ (word opening).isCloser = false := ⟨rfl, rfl⟩
      have mark : (mark "(").isOpener = true := rfl
      simp only [word, mark, ends, Bool.false_eq_true, if_false, if_true,
        List.length_nil] at depth ⊢
      omega
  rw [statementTokens, surplus_append, rendered]
  have semicolon : surplus [mark ";"] = 0 := rfl
  split
  · rw [semicolon, Int.add_zero]
  · exact Int.add_zero _

end AsyncWrap

namespace Statement

theorem exists_placed_of_mem {before : List Token} {statement : Statement}
    {statements : List Statement} (laid : Laid before statements)
    (mem : statement ∈ statements) : ∃ before' after, Placed before' statement after := by
  induction statements generalizing before with
  | nil => cases mem
  | cons first others ih =>
      rcases List.mem_cons.1 mem with rfl | further
      · exact ⟨before, others, laid.1⟩
      · exact ih laid.2 further

theorem Placed.nested {before : List Token} {statement : Statement} {after : List Statement}
    {final : List Bracket} (placed : Placed before statement after) (nested : WellNested before)
    (h : openAfter? [] (tokensOf (statement :: after)) = some final)
    (ends : statement.semicolon.isSome = true ∨ after ≠ []) :
    WellNested statement.tokens ∧ WellNested (before ++ statement.allTokens) ∧
      openAfter? [] (tokensOf after) = some final := by
  have whole : openAfter? [] ((before ++ statement.tokens) ++
      (statement.semicolon.toList ++ tokensOf after)) = some final := by
    rw [List.append_assoc, openAfter?_append, nested.openAfter?, Option.bind_some]
    rwa [tokensOf_cons, allTokens, List.append_assoc] at h
  obtain ⟨inside, rest⟩ := wellNested_of_depthOf whole (placed.closed ends)
  have tokens : WellNested statement.tokens := by
    have := inside.openAfter? []
    rw [openAfter?_append, nested.openAfter?, Option.bind_some] at this
    exact (wellNested_iff _).2 this
  have semicolon : WellNested statement.semicolon.toList := by
    cases hsemicolon : statement.semicolon with
    | none => exact .nil
    | some token =>
        have plain := plain_of_isPunctuator (by simp) (placed.isSemicolon token hsemicolon)
        exact .plain plain.1 plain.2 .nil
  rw [openAfter?_append, semicolon.openAfter?, Option.bind_some] at rest
  exact ⟨tokens, nested.append (tokens.append semicolon), rest⟩

theorem nested_of_laid {before : List Token} {front : List Statement} {last : Statement}
    {final : List Bracket} (laid : Laid before (front ++ [last])) (nested : WellNested before)
    (h : openAfter? [] (tokensOf (front ++ [last])) = some final) :
    (∀ statement ∈ front, WellNested statement.tokens) ∧
      openAfter? [] last.tokens = some final ∧ (final ≠ [] → last.semicolon = none) := by
  induction front generalizing before with
  | nil =>
      rw [List.nil_append] at laid h
      refine ⟨by simp, ?_⟩
      cases hsemicolon : last.semicolon with
      | none =>
          refine ⟨?_, fun _ => rfl⟩
          simpa [tokensOf, allTokens, hsemicolon] using h
      | some token =>
          obtain ⟨inside, -, rest⟩ := laid.1.nested nested h (.inl (by simp [hsemicolon]))
          obtain rfl : [] = final := by simpa [tokensOf] using rest
          exact ⟨inside.openAfter? [], fun open' => absurd rfl open'⟩
  | cons statement front ih =>
      rw [List.cons_append] at laid h
      obtain ⟨inside, before', rest⟩ := laid.1.nested nested h (.inr (by simp))
      obtain ⟨further, ends⟩ := ih laid.2 before' rest
      exact ⟨List.forall_mem_cons.2 ⟨inside, further⟩, ends⟩

end Statement

namespace AsyncWrap

open Statement

theorem wellNested_bodyTokens {statements : List Statement} (after : List Statement)
    (placed : ∀ statement ∈ statements, ∃ before' after', Placed before' statement after')
    (nested : ∀ statement ∈ statements, WellNested statement.tokens) :
    WellNested (bodyTokens after statements) := by
  induction statements with
  | nil => exact .nil
  | cons statement rest ih =>
      rw [List.forall_mem_cons] at placed nested
      obtain ⟨before', after', first⟩ := placed.1
      exact (wellNested_statementTokens first (nested.1.openAfter? []) (.inr rfl) _).append
        (ih placed.2 nested.2)

/-- New texts consist of tokens of the statements, names and marks. -/
theorem mem_bodyTokens {after statements : List Statement} {token : Token}
    (mem : token ∈ bodyTokens after statements) :
    token ∈ tokensOf statements ∨ token.kind = .identifier ∨ token.kind = .punctuator := by
  induction statements with
  | nil => cases mem
  | cons statement rest ih =>
      rw [tokensOf_cons, List.mem_append]
      rcases List.mem_append.1 mem with inFirst | inRest
      · rcases List.mem_append.1 inFirst with rendered | semicolon
        · exact (mem_renderedTokens rendered).imp_left fun own =>
            .inl (List.mem_append_left _ own)
        · split at semicolon
          · obtain rfl := List.mem_singleton.1 semicolon
            exact .inr (.inr rfl)
          · cases semicolon
      · exact (ih inRest).imp_left .inr

theorem hoistedTokens_cons_cons (first next : List Char) (names : List (List Char)) :
    hoistedTokens (first :: next :: names) =
      word "var" :: ⟨.identifier, [], first⟩ :: mark "," ::
        (hoistedTokens (next :: names)).tail := by
  simp [hoistedTokens, List.intercalate_cons_cons]

/-- The `var` list of hoisted names consists of words, commas and a semicolon. -/
theorem mem_hoistedTokens {names : List (List Char)} {token : Token}
    (mem : token ∈ hoistedTokens names) :
    token.isIdentifier = true ∨ token.isPunctuator "," = true ∨ token.isPunctuator ";" = true := by
  induction names with
  | nil => cases mem
  | cons first names ih =>
      cases names with
      | nil =>
          simp only [hoistedTokens, List.map_cons, List.map_nil, List.intercalate_singleton,
            List.singleton_append, List.mem_cons, List.not_mem_nil, or_false] at mem
          rcases mem with rfl | rfl | rfl
          · exact .inl rfl
          · exact .inl rfl
          · exact .inr (.inr rfl)
      | cons next names =>
          rw [hoistedTokens_cons_cons, List.mem_cons, List.mem_cons, List.mem_cons] at mem
          rcases mem with rfl | rfl | rfl | further
          · exact .inl rfl
          · exact .inl rfl
          · exact .inr (.inl rfl)
          · exact ih ((List.tail_sublist _).subset further)

theorem wellNested_hoistedTokens (names : List (List Char)) :
    WellNested (hoistedTokens names) := by
  refine wellNested_of_plain fun token mem => ?_
  rcases mem_hoistedTokens mem with identifier | comma | semicolon
  · exact plain_of_isIdentifier identifier
  · exact plain_of_isPunctuator (by simp) comma
  · exact plain_of_isPunctuator (by simp) semicolon

theorem openAfter?_wrappedTokens (names : List (List Char)) (body rest : List Token) :
    openAfter? [] (wrappedTokens names body rest) =
      openAfter? [.curly, .round] (body ++ rest) := by
  have opening : openAfter? [] openingTokens = some [.curly, .round] := rfl
  rw [wrappedTokens, openAfter?_append, openAfter?_append,
    (wellNested_hoistedTokens names).openAfter?, Option.bind_some, opening, Option.bind_some]

theorem surplus_wrappedTokens (names : List (List Char)) (body rest : List Token) :
    surplus (wrappedTokens names body rest) = 2 + surplus body + surplus rest := by
  have opening : surplus openingTokens = 2 := rfl
  rw [wrappedTokens, surplus_append, surplus_append, surplus_append,
    (wellNested_hoistedTokens names).surplus, opening]
  omega

/-- Only literals of its statements are literals of a wrapped source. -/
theorem fault?_of_mem_wrappedTokens {names : List (List Char)} {body rest : List Token}
    (faultless : ∀ token ∈ body ++ rest, Completeness.fault? token = none) {token : Token}
    (mem : token ∈ wrappedTokens names body rest) : Completeness.fault? token = none := by
  rcases List.mem_append.1 mem with inFront | inBody
  · refine Completeness.fault?_eq_none_of_kind ?_
    rcases List.mem_append.1 inFront with hoisted | opening
    · rcases mem_hoistedTokens hoisted with identifier | comma | semicolon
      · exact .inl (by simpa [isIdentifier] using identifier)
      · exact .inr (isPunctuator_iff.1 comma).1
      · exact .inr (isPunctuator_iff.1 semicolon).1
    · have kinds : ∀ token ∈ openingTokens,
          token.kind = .identifier ∨ token.kind = .punctuator := by decide
      exact kinds token opening
  · exact faultless token inBody

theorem fault?_of_mem_bodyTokens {after statements : List Statement}
    (faultless : ∀ token ∈ tokensOf statements, Completeness.fault? token = none) {token : Token}
    (mem : token ∈ bodyTokens after statements) : Completeness.fault? token = none := by
  rcases mem_bodyTokens mem with inSource | added
  · exact faultless token inSource
  · exact Completeness.fault?_eq_none_of_kind added

theorem fault?_of_mem_closingTokens {token : Token} (mem : token ∈ closingTokens) :
    Completeness.fault? token = none := by
  have kinds : ∀ token ∈ closingTokens, token.kind = .identifier ∨ token.kind = .punctuator := by
    decide
  exact Completeness.fault?_eq_none_of_kind (kinds token mem)

/-- After a well-nested body only the brackets of the function around it are open. -/
theorem checkWithin_wrappedTokens {body : List Token}
    (faultless : ∀ token ∈ body, Completeness.fault? token = none) (nested : WellNested body)
    (names : List (List Char)) (rest : List Token) :
    Completeness.checkWithin [] (wrappedTokens names (body.map bare) rest) =
      Completeness.checkWithin [.curly, .round] rest := by
  have parts : wrappedTokens names (body.map bare) rest =
      wrappedTokens names (body.map bare) [] ++ rest := by
    simp [wrappedTokens]
  rw [parts]
  refine Completeness.checkWithin_append
    (fun token mem => fault?_of_mem_wrappedTokens ?_ mem) ?_ rest
  · intro token mem
    rw [List.append_nil] at mem
    obtain ⟨own, inBody, rfl⟩ := List.mem_map.1 mem
    exact faultless own inBody
  · rw [openAfter?_wrappedTokens, List.append_nil, openAfter?_map_bare, nested.openAfter?]

end AsyncWrap

end ScriptConsole

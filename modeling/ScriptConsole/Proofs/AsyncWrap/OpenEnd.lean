import ScriptConsole.Proofs.AsyncWrap.Brackets

/-!
# Statements that end in an open literal

The last token of a source may be a literal that is not closed.  Wrapping leaves
it out with the declarator that it ends, or keeps it, and then the literal takes
some of what wrapping adds after it.
-/

namespace ScriptConsole

open Token

namespace AsyncWrap

open Declaration Statement

/-- The declarators before the last one do not hold the last token. -/
theorem mem_dropLast_of_mem_partsAtTop {tokens last : List Token} {parts : List (List Token)}
    (hparts : partsAtTop "," 0 tokens.tail = parts ++ [last]) {part : List Token}
    (mem : part ∈ parts) {token : Token} (inside : token ∈ part) : token ∈ tokens.dropLast := by
  rcases cases_of_partsAtTop_concat hparts with ⟨rfl, -⟩ | ⟨before, comma, hbefore, -, within⟩
  · cases mem
  · cases tokens with
    | nil => simp at hbefore
    | cons keyword tail =>
        rw [List.tail_cons] at hbefore
        rw [hbefore, ← List.cons_append, List.dropLast_append_of_ne_nil (List.cons_ne_nil _ _)]
        exact List.mem_append_left _ (List.mem_cons_of_mem _ (within part mem inside))

theorem mem_part_of_mem_assignment {part : List Token} {single : Declaration}
    (h : ofDeclarator? part = some single) {assignment : Assignment}
    (mem : assignment ∈ single.assignments) {token : Token}
    (inside : token ∈ assignment.pattern ∨ token ∈ assignment.initializer) : token ∈ part := by
  obtain ⟨-, -, equals, -, rfl⟩ := eq_append_of_mem_assignments h mem
  rw [List.mem_append, List.mem_cons]
  exact inside.imp_right .inr

theorem mem_renderedTokens_of_leavesEndOut {statement : Statement} {isLast : Bool}
    (out : leavesEndOut statement = true) {token : Token}
    (mem : token ∈ renderedTokens isLast statement) :
    token ∈ statement.tokens.dropLast ∨ token.kind = .identifier ∨ token.kind = .punctuator := by
  simp only [leavesEndOut, Bool.and_eq_true, beq_iff_eq, Option.isSome_iff_exists] at out
  obtain ⟨⟨kind, declaration, parts⟩, bare⟩ := out
  obtain ⟨last, hlast, noInitializer⟩ := (Option.any_eq_true _ _).1 bare
  obtain ⟨front, hparts⟩ := List.getLast?_eq_some_iff.1 hlast
  have whole := parts
  rw [ofTokens?, hparts] at whole
  obtain ⟨earlier, single, hassignments, hsingle, inFront⟩ :=
    exists_assignments_of_ofDeclarators? whole
  have nothing : single.assignments = [] := by
    rw [isBare, Option.isNone_iff_eq_none] at noInitializer
    rw [ofDeclarator?, noInitializer] at hsingle
    cases hsingle
    rfl
  rw [nothing, List.append_nil] at hassignments
  by_cases empty : declaration.assignments = []
  · rw [renderedTokens_of_dropped kind parts empty] at mem
    cases mem
  · rw [renderedTokens_of_assignments kind parts empty] at mem
    rcases mem_of_mem_enclosed mem with inside | added
    · rcases eq_or_mem_of_mem_assignmentsTokens inside with isMark | ⟨assignment, own, inside⟩
      · exact .inr (.inr isMark)
      · rw [hassignments] at own
        obtain ⟨part, inParts, other, hother, hmem⟩ := inFront assignment own
        exact .inl (mem_dropLast_of_mem_partsAtTop hparts inParts
          (mem_part_of_mem_assignment hother hmem inside))
    · exact .inr added

/-- A declaration that keeps its last token ends in the initializer that holds it. -/
theorem exists_initializer_of_kept {statement : Statement} {declaration : Declaration}
    {init : List Token} {literal : Token} (kind : statement.kind = .declaration)
    (parts : ofTokens? statement.tokens = some declaration)
    (tokens : statement.tokens = init ++ [literal])
    (opened : Lexeme.isOpenLiteral literal.kind literal.text = true)
    (kept : leavesEndOut statement = false) :
    ∃ front equals more, ∃ earlier : List Assignment, ∃ pattern : List Token,
      partsAtTop "," 0 statement.tokens.tail =
        front ++ [pattern ++ equals :: (more ++ [literal])] ∧
      equals.isPunctuator "=" = true ∧
      declaration.assignments = earlier ++ [⟨pattern, more ++ [literal]⟩] ∧
      (∀ token, token ∈ pattern ∨ token ∈ more → token ∈ init) ∧
      ∀ assignment ∈ earlier, ∀ token,
        token ∈ assignment.pattern ∨ token ∈ assignment.initializer → token ∈ init := by
  have notBare : endsBare statement.tokens = false := by
    rwa [leavesEndOut_eq_endsBare kind parts] at kept
  rw [endsBare] at notBare
  cases hlast : (partsAtTop "," 0 statement.tokens.tail).getLast? with
  | none => exact absurd (List.getLast?_eq_none_iff.1 hlast) (partsAtTop_ne_nil _ _ _)
  | some last =>
      obtain ⟨front, hparts⟩ := List.getLast?_eq_some_iff.1 hlast
      rw [hlast, Option.any_some, isBare, Option.isNone_eq_false_iff,
        Option.isSome_iff_exists] at notBare
      obtain ⟨⟨pattern, initializer⟩, hsplit⟩ := notBare
      obtain ⟨equals, rfl, isEquals, -⟩ := eq_append_of_splitAtTop? hsplit
      have suffix : pattern ++ equals :: initializer <:+ statement.tokens := by
        refine List.IsSuffix.trans ?_ (List.tail_suffix _)
        rcases cases_of_partsAtTop_concat hparts with ⟨-, whole⟩ | ⟨before, comma, whole, -, -⟩
        · exact whole ▸ List.suffix_refl _
        · rw [whole]
          exact (List.suffix_cons _ _).trans (List.suffix_append _ _)
      obtain ⟨before, hbefore⟩ := suffix
      rw [tokens] at hbefore
      rcases List.eq_nil_or_concat initializer with rfl | ⟨more, final, rfl⟩
      · rw [← List.append_assoc] at hbefore
        obtain ⟨-, same⟩ := List.append_inj' hbefore rfl
        cases same
        rw [(isPunctuator_iff.1 isEquals).1] at opened
        cases opened
      · have shape : (before ++ (pattern ++ equals :: more)) ++ [final] = init ++ [literal] := by
          rw [← hbefore, List.concat_eq_append]
          simp
        obtain ⟨rfl, same⟩ := List.append_inj' shape rfl
        cases same
        rw [List.concat_eq_append] at hsplit hparts
        have whole := parts
        rw [ofTokens?, hparts] at whole
        obtain ⟨earlier, single, hassignments, hsingle, inFront⟩ :=
          exists_assignments_of_ofDeclarators? whole
        have only : single.assignments = [⟨pattern, more ++ [literal]⟩] := by
          unfold ofDeclarator? at hsingle
          rw [hsplit] at hsingle
          split at hsingle
          · rename_i impossible
            cases impossible
          · cases hsingle
          · rename_i impossible
            simp at impossible
          · rename_i same
            cases same
            cases hsingle
            rfl
        refine ⟨front, equals, more, earlier, pattern, hparts, isEquals, ?_, ?_, ?_⟩
        · rw [hassignments, only]
        · intro token mem
          rw [List.mem_append, List.mem_append, List.mem_cons]
          exact .inr (mem.imp_right .inr)
        · intro assignment own token inside
          obtain ⟨part, inParts, other, hother, hmem⟩ := inFront assignment own
          have early := mem_dropLast_of_mem_partsAtTop hparts inParts
            (mem_part_of_mem_assignment hother hmem inside)
          rwa [tokens, List.dropLast_concat] at early

/-- How the new text of a statement is scanned whose last token, kept, is an open
literal: what stands before the literal as its tokens, and then the literal with what
wrapping adds after it. -/
structure ReadUpTo (isLast : Bool) (statement : Statement) (init : List Token)
    (literal : Token) (before closing : List Token) : Prop where
  tokens : renderedTokens isLast statement = before ++ literal :: closing
  closing : closing = [] ∨ closing = [mark ")"]
  own : ∀ token ∈ before,
    token ∈ init ∨ token.kind = .identifier ∨ token.kind = .punctuator

namespace ReadIn

variable {previous : Option Token} {statement : Statement} {rest : List Char}
  {init : List Token} {literal : Token}

theorem eq_nil_of_isOpenLiteral (readIn : ReadIn previous statement rest)
    (tokens : statement.tokens = init ++ [literal])
    (opened : Lexeme.isOpenLiteral literal.kind literal.text = true) :
    sourceOf statement.semicolon.toList ++ rest = [] := by
  have scanned := readIn.scanned_tokens
  rw [tokens] at scanned
  exact (scanned.eq_nil_of_isOpenLiteral opened).2

/-- The tokens before the last one of a statement are scanned again. -/
theorem exists_bareAfter_textOf (readIn : ReadIn previous statement rest)
    (tokens : statement.tokens = init ++ [literal])
    (opened : Lexeme.isOpenLiteral literal.kind literal.text = true)
    {previous' : Option Token} {rest' : List Char} (alike : Alike [] rest')
    (slash : ∀ first ∈ statement.tokens.head?, first.isSlash = true →
      Lexeme.allowsRegex previous' = true) :
    ∃ previous'', Scan.bareAfter previous' (textOf statement.tokens ++ rest') =
      init.map bare ++ Scan.bareAfter previous'' (literal.text ++ rest') := by
  have scanned := readIn.scanned_tokens
  have divides := readIn.divides_tokens
  have opensFirst := readIn.slash
  rw [readIn.eq_nil_of_isOpenLiteral tokens opened] at scanned
  rw [tokens] at scanned divides opensFirst slash ⊢
  refine exists_bareAfter_textOf_concat scanned divides alike fun first hfirst isSlash => ?_
  have isFirst : first ∈ (init ++ [literal]).head? := by
    rw [List.head?_append, hfirst]
    rfl
  rw [slash first isFirst isSlash, opensFirst first isFirst isSlash]

/-- The assignments of a declaration that keeps its last token are scanned up to it. -/
theorem exists_bareAfter_kept (readIn : ReadIn previous statement rest)
    {declaration : Declaration} (kind : statement.kind = .declaration)
    (parts : ofTokens? statement.tokens = some declaration)
    (tokens : statement.tokens = init ++ [literal])
    (opened : Lexeme.isOpenLiteral literal.kind literal.text = true)
    (kept : leavesEndOut statement = false) {previous' : Option Token} {rest' : List Char}
    (alike : Alike [] rest') (allows : Lexeme.allowsRegex previous' = true) :
    declaration.assignments ≠ [] ∧ ∃ before previous'',
      assignmentsTokens declaration.assignments = before ++ [literal] ∧
      (∀ token ∈ before, token ∈ init ∨ token.kind = .identifier ∨ token.kind = .punctuator) ∧
      Scan.bareAfter previous' (List.intercalate ", ".toList
          (declaration.assignments.map Assignment.render) ++ rest') =
        before.map bare ++ Scan.bareAfter previous'' (literal.text ++ rest') := by
  obtain ⟨front, equals, more, earlier, pattern, hparts, isEquals, hassignments, own, ownEarlier⟩ :=
    exists_initializer_of_kept kind parts tokens opened kept
  have scanned := readIn.scanned_tokens
  rw [tokens] at scanned
  have closed : ∀ token ∈ init, Lexeme.isOpenLiteral token.kind token.text = false := by
    intro token mem
    refine scanned.isOpenLiteral_of_mem_dropLast ?_
    rwa [List.dropLast_concat]
  have legible : ∀ assignment ∈ earlier, Legible assignment := by
    intro assignment mem
    refine readIn.legible kind parts (by simp [hassignments, mem]) fun token inside => ?_
    rcases mem_assignmentTokens_iff.1 inside with rfl | inAssignment
    · rfl
    · exact closed token (ownEarlier assignment mem token inAssignment)
  obtain ⟨previous₀, rest₀, partScanned, partDivides, partSlash⟩ :=
    readIn.exists_scanned_of_mem kind (hparts ▸ List.mem_append_right _ (List.mem_singleton_self _))
  obtain ⟨patternScanned, tailScanned⟩ := Scanned.append_iff.1 partScanned
  obtain ⟨patternDivides, tailDivides⟩ := divides_append_iff.1 partDivides
  obtain ⟨-, rfl⟩ := tailScanned.tail.eq_nil_of_isOpenLiteral opened
  have comma : Lexeme.allowsRegex (some (mark ",")) = true := rfl
  have equalsOpens : Lexeme.allowsRegex (some (mark "=")) = Lexeme.allowsRegex (some equals) :=
    (allowsRegex_of_isPunctuator isEquals).symm
  obtain ⟨previous₁, allows₁, hearlier⟩ :=
    @exists_bareAfter_flatMap _ (Lexeme.allowsRegex · = true) _ _ comma earlier
      (fun assignment mem => legible assignment mem ',' (by decide)) _ allows
      (textOf pattern ++ (" = ".toList ++ (textOf (more ++ [literal]) ++ rest')))
  have hpattern := bareAfter_pattern patternScanned patternDivides
    (fun token mem => closed token (own token (.inl mem)))
    (fun first hfirst => partSlash first (by rw [List.head?_append, hfirst]; rfl)) allows₁
    (textOf (more ++ [literal]) ++ rest')
  obtain ⟨previous₂, hmore⟩ := exists_bareAfter_textOf_concat tailScanned.tail tailDivides.2 alike
    fun _ _ _ => equalsOpens
  rw [hassignments]
  refine ⟨by simp, earlier.flatMap (assignmentTokens · ++ [mark ","]) ++
    (pattern ++ mark "=" :: more), previous₂, ?_, ?_, ?_⟩
  · rw [assignmentsTokens, List.map_append, List.map_singleton, intercalate_concat,
      List.flatMap_map]
    simp [assignmentTokens]
  · intro token mem
    rcases List.mem_append.1 mem with inEarlier | inLast
    · obtain ⟨assignment, hassignment, inside⟩ := List.mem_flatMap.1 inEarlier
      rcases List.mem_append.1 inside with inTokens | isComma
      · rcases mem_assignmentTokens_iff.1 inTokens with rfl | inAssignment
        · exact .inr (.inr rfl)
        · exact .inl (ownEarlier assignment hassignment token inAssignment)
      · obtain rfl := List.mem_singleton.1 isComma
        exact .inr (.inr rfl)
    · rcases List.mem_append.1 inLast with inPattern | inTail
      · exact .inl (own token (.inl inPattern))
      · rcases List.mem_cons.1 inTail with rfl | inMore
        · exact .inr (.inr rfl)
        · exact .inl (own token (.inr inMore))
  · rw [List.map_append, List.map_singleton, intercalate_concat, List.flatMap_map]
    have text : earlier.flatMap (Assignment.render · ++ ", ".toList) ++
        Assignment.render ⟨pattern, more ++ [literal]⟩ ++ rest' =
          earlier.flatMap (Assignment.render · ++ ", ".toList) ++ (textOf pattern ++
            (" = ".toList ++ (textOf (more ++ [literal]) ++ rest'))) := by
      simp [Assignment.render]
    rw [text, hearlier, hpattern, hmore]
    simp [List.map_flatMap, bare, mark]

/-- The new text of a statement that keeps its last token is scanned up to it. -/
theorem exists_bareAfter_render_of_isOpenLiteral (readIn : ReadIn previous statement rest)
    (tokens : statement.tokens = init ++ [literal])
    (opened : Lexeme.isOpenLiteral literal.kind literal.text = true)
    (kept : leavesEndOut statement = false) (isLast : Bool) {previous' : Option Token}
    {rest' : List Char} (alike : Alike [] rest')
    (slash : ∀ first ∈ statement.tokens.head?, first.isSlash = true →
      Lexeme.allowsRegex previous' = true) :
    ∃ before closing previous'', ReadUpTo isLast statement init literal before closing ∧
      Scan.bareAfter previous' ((render isLast statement).text ++ rest') =
        before.map bare ++
          Scan.bareAfter previous'' (literal.text ++ (textOf closing ++ rest')) := by
  have inInit : ∀ token ∈ init,
      token ∈ init ∨ token.kind = .identifier ∨ token.kind = .punctuator :=
    fun token mem => .inl mem
  have opens : Lexeme.allowsRegex (some (mark "(")) = true := rfl
  have round : ')' ∈ barriers := by decide
  cases renders isLast statement with
  | verbatim whole rendered same =>
      obtain ⟨previous₁, value⟩ := readIn.exists_bareAfter_textOf tokens opened alike slash
      rw [rendered]
      exact ⟨init, [], previous₁, ⟨same.trans tokens, .inl rfl, inInit⟩, value⟩
  | named kind found rendered same =>
      obtain ⟨token, mem, identifier, rfl⟩ := exists_mem_of_declaredName? found
      have isName := readIn.scanned_tokens.isName mem identifier
      have equals : Lexeme.allowsRegex (some (mark "=")) = true := rfl
      obtain ⟨previous₁, value⟩ :=
        readIn.exists_bareAfter_textOf tokens opened alike fun _ _ _ => equals
      refine ⟨⟨.identifier, [], token.text⟩ :: mark "=" :: init, [], previous₁,
        ⟨by simp [same, tokens], .inl rfl, ?_⟩, ?_⟩
      · rw [List.forall_mem_cons, List.forall_mem_cons]
        exact ⟨.inr (.inl rfl), .inr (.inr rfl), inInit⟩
      · rw [rendered]
        dsimp only
        rw [List.append_assoc, bareAfter_assigned isName, value]
        rfl
  | dropped kind parts nothing rendered same =>
      obtain ⟨nonempty, -⟩ :=
        readIn.exists_bareAfter_kept kind parts tokens opened kept alike opens
      exact absurd nothing nonempty
  | assignments kind parts nonempty rendered same =>
      obtain ⟨-, before, previous₁, inside, own, inner⟩ :=
        readIn.exists_bareAfter_kept kind parts tokens opened kept
          (.barrier round [] rest') opens
      refine ⟨word "void" :: mark "(" :: before, [mark ")"], previous₁,
        ⟨by simp [same, inside, enclosed], .inr rfl, ?_⟩, ?_⟩
      · rw [List.forall_mem_cons, List.forall_mem_cons]
        exact ⟨.inr (.inl rfl), .inr (.inr rfl), own⟩
      · rw [rendered, List.append_assoc, List.append_assoc, bareAfter_void,
          List.singleton_append, inner]
        rfl
  | value kind rendered same =>
      obtain ⟨previous₁, value⟩ := readIn.exists_bareAfter_textOf tokens opened
        (.barrier round [] rest') fun _ _ _ => opens
      refine ⟨word "return" :: mark "(" :: init, [mark ")"], previous₁,
        ⟨by simp [same, tokens, enclosed], .inr rfl, ?_⟩, ?_⟩
      · rw [List.forall_mem_cons, List.forall_mem_cons]
        exact ⟨.inr (.inl rfl), .inr (.inr rfl), inInit⟩
      · rw [rendered, List.append_assoc, List.append_assoc, bareAfter_return,
          List.singleton_append, value]
        rfl

end ReadIn

end AsyncWrap

end ScriptConsole

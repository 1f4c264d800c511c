import ScriptConsole.Proofs.Declaration.Parts
import ScriptConsole.Proofs.Pattern.Grammar
import ScriptConsole.Proofs.Token.Scanning

/-!
# Taking declarations apart

A declaration is a keyword and declarators between commas, each a binding pattern with
or without an initializer.  Its parts are the names that the patterns bind and one
assignment for every initializer, each with the source text of its pattern and of its
initializer.
-/

namespace ScriptConsole.Declaration

open Token Pattern

section Cutting

variable {text : String} {tokens : List Token}

theorem splitAtTop?_nested (nested : WellNested tokens) (depth : Nat) (rest : List Token) :
    splitAtTop? text (depth + 1) (tokens ++ rest) =
      (splitAtTop? text (depth + 1) rest).map fun parts => (tokens ++ parts.1, parts.2) := by
  induction nested generalizing depth rest with
  | nil => simp
  | plain opens closes tail ih =>
      simp [splitAtTop?, depthAfter, isOpener, isCloser, opens, closes, ih, Function.comp_def]
  | group opens closes within tail ihWithin ihTail =>
      simp [splitAtTop?, depthAfter, isOpener, isCloser, opens, closes,
        opens?_eq_none_of_closes? closes, ihWithin, ihTail, Function.comp_def]

theorem isPunctuator_of_opens {opening : Token} {bracket : Bracket}
    (opens : opening.opens? = some bracket) (mem : text ∈ [",", "="]) :
    opening.isPunctuator text = false := by
  rw [opens?_eq_some_iff] at opens
  simp only [List.mem_cons, List.not_mem_nil, or_false] at mem
  rcases mem with rfl | rfl <;> cases bracket <;>
    simp [isPunctuator, opens, Bracket.opening]

/-- A run without the mark outside brackets belongs to the tokens before it. -/
theorem splitAtTop?_unsplit (mem : text ∈ [",", "="]) (unsplit : Unsplit text tokens)
    (rest : List Token) :
    splitAtTop? text 0 (tokens ++ rest) =
      (splitAtTop? text 0 rest).map fun parts => (tokens ++ parts.1, parts.2) := by
  induction unsplit generalizing rest with
  | nil => simp
  | plain opens closes other tail ih =>
      simp [splitAtTop?, depthAfter, isOpener, isCloser, opens, closes, other, ih,
        Function.comp_def]
  | group opens closes within tail ih =>
      simp [splitAtTop?, depthAfter, isOpener, isCloser, opens, closes,
        isPunctuator_of_opens opens mem, opens?_eq_none_of_closes? closes,
        splitAtTop?_nested within, ih, Function.comp_def]

theorem partsAtTop_nested (nested : WellNested tokens) (depth : Nat) {rest part : List Token}
    {parts : List (List Token)} (h : partsAtTop text (depth + 1) rest = part :: parts) :
    partsAtTop text (depth + 1) (tokens ++ rest) = (tokens ++ part) :: parts := by
  induction nested generalizing depth rest part with
  | nil => exact h
  | plain opens closes tail ih =>
      simp [partsAtTop, depthAfter, isOpener, isCloser, opens, closes, ih depth h]
  | @group opening closing inner outside bracket opens closes within tail ihWithin ihTail =>
      have closed : partsAtTop text (depth + 1 + 1) (closing :: (outside ++ rest)) =
          (closing :: (outside ++ part)) :: parts := by
        simp [partsAtTop, depthAfter, isOpener, isCloser, closes,
          opens?_eq_none_of_closes? closes, ihTail depth h]
      simp [partsAtTop, depthAfter, isOpener, opens, ihWithin (depth + 1) closed]

/-- A run without the mark outside brackets belongs to the first part. -/
theorem partsAtTop_unsplit (mem : text ∈ [",", "="]) (unsplit : Unsplit text tokens)
    {rest part : List Token} {parts : List (List Token)}
    (h : partsAtTop text 0 rest = part :: parts) :
    partsAtTop text 0 (tokens ++ rest) = (tokens ++ part) :: parts := by
  induction unsplit generalizing rest part with
  | nil => exact h
  | plain opens closes other tail ih =>
      simp [partsAtTop, depthAfter, isOpener, isCloser, opens, closes, other, ih h]
  | @group opening closing inner outside bracket opens closes within tail ih =>
      have closed : partsAtTop text (0 + 1) (closing :: (outside ++ rest)) =
          (closing :: (outside ++ part)) :: parts := by
        simp [partsAtTop, depthAfter, isOpener, isCloser, closes,
          opens?_eq_none_of_closes? closes, ih h]
      simp [partsAtTop, depthAfter, isOpener, opens, isPunctuator_of_opens opens mem,
        partsAtTop_nested within 0 closed]

end Cutting

/-- A binding pattern, and its equals sign and initializer, if it has one. -/
structure Declarator where
  pattern : List Token
  bound : List Token
  initializer : List Token
  binds : Binds pattern bound
  initialized : Default initializer

namespace Declarator

def tokens (declarator : Declarator) : List Token :=
  declarator.pattern ++ declarator.initializer

def names (declarator : Declarator) : List (List Char) :=
  declarator.bound.map (·.text)

def assignment? (declarator : Declarator) : Option Assignment :=
  match declarator.initializer with
  | [] => none
  | _ :: value => some ⟨declarator.pattern, value⟩

theorem unsplit (declarator : Declarator) : Unsplit "," declarator.tokens :=
  (declarator.binds.unsplit ",").append declarator.initialized.unsplit

/-- A declarator binds the names of its pattern and makes the assignment of its
initializer. -/
theorem ofDeclarator?_tokens (declarator : Declarator) :
    ofDeclarator? declarator.tokens =
      some ⟨declarator.names, declarator.assignment?.toList⟩ := by
  obtain ⟨pattern, bound, initializer, binds, initialized⟩ := declarator
  have names : Pattern.names pattern = bound.map (·.text) := by
    rw [Pattern.names, binds.boundTokens_eq]
  have cut := splitAtTop?_unsplit (by simp) (binds.unsplit "=") initializer
  cases initialized with
  | none =>
      rw [List.append_nil] at cut
      simp only [splitAtTop?, Option.map_none] at cut
      simp [tokens, ofDeclarator?, cut, assignment?, Declarator.names, names]
  | @some mark value equals expression =>
      obtain ⟨first, more, rfl, -⟩ := binds.begins
      obtain ⟨head, tail, rfl⟩ := List.exists_cons_of_ne_nil expression.ne_nil
      simp only [splitAtTop?, equals, and_self, if_true, Option.map_some, List.append_nil] at cut
      simp only [tokens, ofDeclarator?, cut, assignment?, Declarator.names, names,
        Option.toList_some]

end Declarator

/-- Declarators with commas between them, and the tokens that they are. -/
inductive Separated : List Declarator → List Token → Prop where
  | single (declarator : Declarator) : Separated [declarator] declarator.tokens
  | cons {comma : Token} {others : List Declarator} {tokens : List Token}
      (declarator : Declarator) (separates : comma.isPunctuator "," = true)
      (following : Separated others tokens) :
      Separated (declarator :: others) (declarator.tokens ++ comma :: tokens)

namespace Separated

variable {declarators : List Declarator} {tokens : List Token}

theorem partsAtTop_eq (separated : Separated declarators tokens) :
    partsAtTop "," 0 tokens = declarators.map (·.tokens) := by
  induction separated with
  | single declarator =>
      have nothing : partsAtTop "," 0 [] = [[]] := rfl
      simpa using partsAtTop_unsplit (by simp) declarator.unsplit nothing
  | @cons comma others tokens declarator separates following ih =>
      have next : partsAtTop "," 0 (comma :: tokens) = [] :: others.map (·.tokens) := by
        simp [partsAtTop, separates, ih]
      simpa using partsAtTop_unsplit (by simp) declarator.unsplit next

theorem infix_of_mem (separated : Separated declarators tokens) {declarator : Declarator}
    (mem : declarator ∈ declarators) : declarator.tokens <:+: tokens := by
  have cut : declarator.tokens ∈ partsAtTop "," 0 tokens := by
    rw [separated.partsAtTop_eq]
    exact List.mem_map_of_mem mem
  exact infix_of_mem_partsAtTop cut

end Separated

theorem ofDeclarators?_map (declarators : List Declarator) :
    ofDeclarators? (declarators.map (·.tokens)) =
      some ⟨declarators.flatMap (·.names), declarators.filterMap (·.assignment?)⟩ := by
  induction declarators with
  | nil => rfl
  | cons declarator others ih =>
      simp only [List.map_cons, ofDeclarators?, declarator.ofDeclarator?_tokens, ih,
        Option.bind_eq_bind, Option.bind_some, append, List.flatMap_cons]
      cases assigned : declarator.assignment? <;> simp [assigned]

/-- A declaration binds the names of its declarators and makes their assignments. -/
theorem Separated.ofTokens?_eq {declarators : List Declarator} {tokens : List Token}
    (separated : Separated declarators tokens) (keyword : Token) :
    ofTokens? (keyword :: tokens) =
      some ⟨declarators.flatMap (·.names), declarators.filterMap (·.assignment?)⟩ := by
  rw [ofTokens?, List.tail_cons, separated.partsAtTop_eq, ofDeclarators?_map]

/-- The pattern and the initializer of an assignment stand in the source as they are. -/
theorem Declarator.sourceOf_tokens (declarator : Declarator) {assignment : Assignment}
    (assigned : declarator.assignment? = some assignment) :
    assignment.pattern = declarator.pattern ∧
      ∃ mark : Token, mark.isPunctuator "=" = true ∧
        declarator.initializer = mark :: assignment.initializer ∧
        sourceOf declarator.tokens = gapOf declarator.pattern ++ textOf declarator.pattern ++
          mark.source ++ gapOf assignment.initializer ++ textOf assignment.initializer := by
  obtain ⟨pattern, bound, initializer, binds, initialized⟩ := declarator
  cases initialized with
  | none => cases assigned
  | @some mark value equals expression =>
      cases assigned
      refine ⟨rfl, mark, equals, rfl, ?_⟩
      simp [tokens, gapOf_append_textOf, Token.source]

/-- A declarator is none exactly if it begins with an equals sign. -/
theorem ofDeclarator?_eq_none_iff (tokens : List Token) :
    ofDeclarator? tokens = none ↔ nextIs "=" tokens = true := by
  cases tokens with
  | nil => simp [ofDeclarator?, splitAtTop?, nextIs]
  | cons token rest =>
      by_cases equals : token.isPunctuator "=" = true
      · simp [ofDeclarator?, splitAtTop?, nextIs, equals]
      · cases cut : splitAtTop? "=" (depthAfter 0 token) rest with
        | none => simp [ofDeclarator?, splitAtTop?, nextIs, equals, cut]
        | some parts =>
            obtain ⟨left, right⟩ := parts
            cases right <;> simp [ofDeclarator?, splitAtTop?, nextIs, equals, cut]

theorem ofDeclarators?_eq_none_iff (declarators : List (List Token)) :
    ofDeclarators? declarators = none ↔ ∃ tokens ∈ declarators, nextIs "=" tokens = true := by
  induction declarators with
  | nil => simp [ofDeclarators?]
  | cons tokens others ih =>
      simp only [List.mem_cons, or_and_right, exists_or, exists_eq_left]
      rw [← ofDeclarator?_eq_none_iff, ← ih]
      cases first : ofDeclarator? tokens <;> cases second : ofDeclarators? others <;>
        simp [ofDeclarators?, first, second]

/-- The first part of a run begins as the run does, unless that is cut at once. -/
theorem nextIs_head_partsAtTop {depth : Nat} {tokens part : List Token}
    {parts : List (List Token)} (h : partsAtTop "," depth tokens = part :: parts) :
    nextIs "=" part = nextIs "=" tokens := by
  cases tokens with
  | nil =>
      cases h
      rfl
  | cons token rest =>
      rw [partsAtTop] at h
      split at h
      · rename_i cut
        cases h
        simp [nextIs, isPunctuator, isPunctuator_iff.1 cut.2]
      · split at h <;> cases h <;> rfl

/-- A part that is not the first begins with an equals sign exactly if one follows a comma
outside brackets. -/
theorem exists_mem_tail_partsAtTop_iff (depth : Nat) (tokens : List Token) :
    (∃ part ∈ (partsAtTop "," depth tokens).tail, nextIs "=" part = true) ↔
      ∃ left comma following, tokens = left ++ comma :: following ∧
        comma.isPunctuator "," = true ∧ left.foldl depthAfter depth = 0 ∧
        nextIs "=" following = true := by
  induction tokens generalizing depth with
  | nil => simp [partsAtTop]
  | cons token rest ih =>
      obtain ⟨first, others, parts⟩ :=
        List.exists_cons_of_ne_nil (partsAtTop_ne_nil "," (depthAfter depth token) rest)
      have further : (∃ part ∈ others, nextIs "=" part = true) ↔
          ∃ left comma following, token :: rest = token :: left ++ comma :: following ∧
            comma.isPunctuator "," = true ∧ (token :: left).foldl depthAfter depth = 0 ∧
            nextIs "=" following = true := by
        have := ih (depthAfter depth token)
        simpa [parts] using this
      by_cases cut : depth = 0 ∧ token.isPunctuator "," = true
      · obtain ⟨rfl, comma⟩ := cut
        have outside : depthAfter 0 token = 0 := by
          obtain ⟨opens, closes⟩ := plain_of_isPunctuator (by simp) comma
          simp [depthAfter, isOpener, isCloser, opens, closes]
        rw [outside] at parts
        simp only [partsAtTop, comma, and_self, if_true, List.tail_cons, parts, List.mem_cons,
          or_and_right, exists_or, exists_eq_left, nextIs_head_partsAtTop parts, further]
        constructor
        · rintro (now | ⟨left, mark, following, whole, later⟩)
          · exact ⟨[], token, rest, rfl, comma, rfl, now⟩
          · exact ⟨token :: left, mark, following, whole, later⟩
        · rintro ⟨left, mark, following, whole, isComma, depth, next⟩
          cases left with
          | nil =>
              cases whole
              exact .inl next
          | cons head left =>
              cases whole
              exact .inr ⟨left, mark, following, rfl, isComma, depth, next⟩
      · rw [partsAtTop, if_neg cut, parts]
        simp only [List.tail_cons, further]
        constructor
        · rintro ⟨left, mark, following, whole, later⟩
          exact ⟨token :: left, mark, following, whole, later⟩
        · rintro ⟨left, mark, following, whole, isComma, depth, next⟩
          cases left with
          | nil =>
              cases whole
              exact absurd ⟨depth, isComma⟩ cut
          | cons head left =>
              cases whole
              exact ⟨left, mark, following, rfl, isComma, depth, next⟩

/-- A declaration is not taken apart exactly if an equals sign begins it or follows a comma
outside brackets. -/
theorem ofTokens?_eq_none_iff (keyword : Token) (tokens : List Token) :
    ofTokens? (keyword :: tokens) = none ↔
      ∃ before following, tokens = before ++ following ∧ nextIs "=" following = true ∧
        (before = [] ∨ ∃ left comma, before = left ++ [comma] ∧
          comma.isPunctuator "," = true ∧ depthOf left = 0) := by
  obtain ⟨first, others, parts⟩ :=
    List.exists_cons_of_ne_nil (partsAtTop_ne_nil "," 0 tokens)
  have further := exists_mem_tail_partsAtTop_iff 0 tokens
  rw [parts, List.tail_cons] at further
  rw [ofTokens?, List.tail_cons, ofDeclarators?_eq_none_iff, parts]
  simp only [List.mem_cons, or_and_right, exists_or, exists_eq_left,
    nextIs_head_partsAtTop parts, further]
  constructor
  · rintro (now | ⟨left, comma, following, rfl, separates, outside, next⟩)
    · exact ⟨[], tokens, rfl, now, .inl rfl⟩
    · exact ⟨left ++ [comma], following, by simp, next, .inr ⟨left, comma, rfl, separates, outside⟩⟩
  · rintro ⟨before, following, rfl, next, rfl | ⟨left, comma, rfl, separates, outside⟩⟩
    · exact .inl next
    · exact .inr ⟨left, comma, following, by simp, separates, outside, next⟩

/-- A declaration of binding patterns with or without initializers binds exactly the names
that the patterns bind, in order, and assigns exactly the initializers, each text of a
pattern and of an initializer being a piece of the source.  A declaration is not taken
apart exactly if a declarator begins with an equals sign. -/
theorem parts_of_declaration :
    (∀ (keyword : Token) (declarators : List Declarator) (tokens : List Token),
      Separated declarators tokens →
        ofTokens? (keyword :: tokens) = some ⟨declarators.flatMap (·.names),
          declarators.filterMap (·.assignment?)⟩ ∧
        ∀ (source : List Char) (earlier later : List Token),
          tokenize source = earlier ++ keyword :: tokens ++ later →
          ∀ declarator ∈ declarators, ∀ assignment,
            declarator.assignment? = some assignment →
            ∃ (before pattern initializer after : List Char) (mark : Token),
              mark.isPunctuator "=" = true ∧
              source = before ++ pattern ++ mark.source ++ gapOf assignment.initializer ++
                initializer ++ after ∧
              pattern = textOf declarator.pattern ∧
              initializer = textOf assignment.initializer ∧
              declarator.initializer = mark :: assignment.initializer ∧
              assignment.render = pattern ++ " = ".toList ++ initializer) ∧
    ∀ (keyword : Token) (tokens : List Token),
      ofTokens? (keyword :: tokens) = none ↔
        ∃ before following, tokens = before ++ following ∧ nextIs "=" following = true ∧
          (before = [] ∨ ∃ left comma, before = left ++ [comma] ∧
            comma.isPunctuator "," = true ∧ depthOf left = 0) := by
  refine ⟨fun keyword declarators tokens separated =>
    ⟨separated.ofTokens?_eq keyword, ?_⟩, ofTokens?_eq_none_iff⟩
  intro source earlier later scanned declarator mem assignment assigned
  obtain ⟨same, mark, equals, initialized, whole⟩ := declarator.sourceOf_tokens assigned
  obtain ⟨left, right, rfl⟩ := separated.infix_of_mem mem
  have spelled : sourceOf (tokenize source) ++ (Scan.ofSource source).trailing = source :=
    Scan.source_ofSource source
  rw [scanned] at spelled
  refine ⟨sourceOf earlier ++ keyword.source ++ sourceOf left ++ gapOf declarator.pattern,
    _, _, sourceOf right ++ sourceOf later ++ (Scan.ofSource source).trailing, mark, equals,
    ?_, rfl, rfl, initialized, ?_⟩
  · simpa [whole, Token.source] using spelled.symm
  · rw [Assignment.render, same]

/-- The declaration `let {a, [b]: [, c = (d, e)]} = f, g`, and `let g, = f`, which has a
declarator without a pattern. -/
theorem parts_of_declaration_let :
    ∃ (keyword : Token) (declarators : List Declarator) (tokens : List Token)
      (declaration : Declaration), Separated declarators tokens ∧
      tokenize "let \x7ba, [b]: [, c = (d, e)]\x7d = f, g".toList =
        [] ++ keyword :: tokens ++ [] ∧
      ofTokens? (keyword :: tokens) = some declaration ∧
      declaration.names = [['a'], ['c'], ['g']] ∧
      declaration.assignments.map Assignment.render =
        ["\x7ba, [b]: [, c = (d, e)]\x7d = f".toList] ∧
      ofTokens? (tokenize "let g, = f".toList) = none := by
  let word (gap : List Char) (c : Char) : Token := ⟨.identifier, gap, [c]⟩
  let mark (gap : List Char) (c : Char) : Token := ⟨.punctuator, gap, [c]⟩
  let keyword : Token := ⟨.identifier, [], "let".toList⟩
  let call : List Token :=
    mark [' '] '(' :: ([word [] 'd', mark [] ',', word [' '] 'e'] ++ mark [] ')' :: [])
  let array : List Token :=
    mark [' '] '[' :: ((mark [] ',' :: ([word [' '] 'c'] ++ mark [' '] '=' :: call)) ++
      [mark [] ']'])
  let entries : List Token :=
    [word [] 'a'] ++ mark [] ',' ::
      (mark [' '] '[' :: ([word [] 'b'] ++ mark [] ']' :: mark [] ':' :: (array ++ [])))
  have expression : Expression call := by
    have opens : (mark [' '] '(').opens? = some .round := by decide
    exact ⟨by simp, .group opens (by decide) ((wellNested_iff _).2 (by decide)) .nil⟩
  have binds : Binds array [word [' '] 'c'] :=
    .array (by decide)
      (.hole (by decide) (.last (.name (by decide)) (.some (by decide) expression)))
      (by decide)
  have listed : Entries entries ([word [] 'a'] ++ [word [' '] 'c']) :=
    .cons (.shorthand (by decide) .none) (by decide)
      (.last (.computed (by decide) (by simp) ((wellNested_iff _).2 (by decide)) (by decide)
        (by decide) binds .none))
  let object : List Token := mark [' '] '\x7b' :: (entries ++ [mark [] '\x7d'])
  let first : Declarator :=
    ⟨object, _, mark [' '] '=' :: [word [' '] 'f'],
      .object (by decide) listed (by decide),
      .some (by decide) ⟨by simp, .plain (by decide) (by decide) (by decide) .nil⟩⟩
  let second : Declarator := ⟨[word [' '] 'g'], _, [], .name (by decide), .none⟩
  have separated : Separated [first, second] (first.tokens ++ mark [] ',' :: second.tokens) :=
    .cons first (by decide) (.single second)
  have scanned : Scan.within 25 none "let \x7ba, [b]: [, c = (d, e)]\x7d = f, g".toList =
      some ⟨keyword :: (object ++ [mark [' '] '=', word [' '] 'f', mark [] ',',
        word [' '] 'g']), []⟩ := by decide
  obtain ⟨parts, -⟩ := parts_of_declaration.1 keyword _ _ separated
  have missing : Scan.within 7 none "let g, = f".toList =
      some ⟨[keyword, word [' '] 'g', mark [] ',', mark [' '] '=', word [' '] 'f'], []⟩ := by
    decide
  refine ⟨keyword, _, _, _, separated, ?_, parts, rfl, rfl, ?_⟩
  · rw [List.nil_append, List.append_nil]
    exact congrArg Scan.tokens (Scan.ofSource_of_within scanned)
  · rw [tokenize, Scan.ofSource_of_within missing]
    refine (parts_of_declaration.2 keyword _).2
      ⟨[word [' '] 'g', mark [] ','], [mark [' '] '=', word [' '] 'f'], rfl, by decide,
        .inr ⟨[word [' '] 'g'], mark [] ',', rfl, by decide, by decide⟩⟩

end ScriptConsole.Declaration

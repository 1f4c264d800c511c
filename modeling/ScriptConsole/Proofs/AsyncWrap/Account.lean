import ScriptConsole.Proofs.AsyncWrap.Body

/-!
# What wrapping keeps

Wrapping a source keeps its text: the statements and the gaps between them come
out in order, each statement as it was or inside what its kind adds to it.  The
one surprise is a function or class named by a word that the search for declared
names steps over.
-/

namespace ScriptConsole

open Token

namespace Statement

/-- The text that ends a statement in its source, the gap before it included. -/
def ending (statement : Statement) : List Char :=
  (statement.semicolon.map (·.source)).getD []

/-- A statement in its source, with the gap before it. -/
def source (statement : Statement) : List Char :=
  gapOf statement.tokens ++ textOf statement.tokens ++ statement.ending

theorem source_eq_sourceOf_allTokens (statement : Statement) :
    statement.source = sourceOf statement.allTokens := by
  obtain ⟨kind, tokens, semicolon⟩ := statement
  cases semicolon <;> simp [source, ending, allTokens, gapOf_append_textOf, Token.source]

theorem flatMap_source (statements : List Statement) :
    statements.flatMap source = sourceOf (tokensOf statements) := by
  induction statements with
  | nil => rfl
  | cons statement statements ih =>
      rw [List.flatMap_cons, tokensOf_cons, sourceOf_append, source_eq_sourceOf_allTokens, ih]

end Statement

namespace AsyncWrap

open Declaration Statement

/-- What the text of a statement becomes, by its kind. -/
inductive Becomes (isLast : Bool) (statement : Statement) : List Char → Prop where
  | same (kind : statement.kind = .empty ∨ statement.kind = .block ∨
      statement.kind = .doWhile ∨ statement.kind = .other) :
      Becomes isLast statement (textOf statement.tokens)
  | inner (kind : statement.kind = .expression) (more : isLast = false) :
      Becomes isLast statement (textOf statement.tokens)
  | value (kind : statement.kind = .expression) (last : isLast = true) :
      Becomes isLast statement ("return (".toList ++ textOf statement.tokens ++ [')'])
  | assigned {marks more : List Token} {name : Token}
      (kind : statement.kind = .namedFunction ∨ statement.kind = .namedClass)
      (named : NamedBy statement.tokens marks name more)
      (found : overlooks marks name = false) :
      Becomes isLast statement (name.text ++ " = ".toList ++ textOf statement.tokens)
  /-- The search steps over the name and finds no other. -/
  | unassigned {marks more : List Token} {name : Token}
      (kind : statement.kind = .namedFunction ∨ statement.kind = .namedClass)
      (named : NamedBy statement.tokens marks name more)
      (missed : overlooks marks name = true) :
      Becomes isLast statement (textOf statement.tokens)
  /-- The search steps over the name and finds another one. -/
  | misassigned {marks more : List Token} {name other : Token}
      (kind : statement.kind = .namedFunction ∨ statement.kind = .namedClass)
      (named : NamedBy statement.tokens marks name more)
      (missed : overlooks marks name = true) (later : other ∈ more)
      (identifier : other.isIdentifier = true) :
      Becomes isLast statement (other.text ++ " = ".toList ++ textOf statement.tokens)
  /-- A declaration that the host is left to reject. -/
  | undeclared (kind : statement.kind = .declaration)
      (parts : ofTokens? statement.tokens = none) :
      Becomes isLast statement (textOf statement.tokens)
  | dropped {names : List (List Char)} (kind : statement.kind = .declaration)
      (parts : ofTokens? statement.tokens = some ⟨names, []⟩) : Becomes isLast statement []
  | assignments {declaration : Declaration} (kind : statement.kind = .declaration)
      (parts : ofTokens? statement.tokens = some declaration)
      (nonempty : declaration.assignments ≠ [])
      (own : ∀ assignment ∈ declaration.assignments,
        assignment.pattern ≠ [] ∧ assignment.initializer ≠ [] ∧
          ∃ mark : Token, mark.isPunctuator "=" = true ∧
            assignment.pattern ++ mark :: assignment.initializer <:+: statement.tokens) :
      Becomes isLast statement ("void (".toList ++
        List.intercalate ", ".toList (declaration.assignments.map Assignment.render) ++ [')'])

/-- The pieces of a wrapped source, one for each statement. -/
inductive Pieces : List Statement → List (List Char) → Prop where
  | nil : Pieces [] []
  | cons {statement : Statement} {rest : List Statement} {text finish : List Char}
      {pieces : List (List Char)}
      (becomes : Becomes (rest.all (·.kind == .empty)) statement text)
      (ends : finish = statement.ending ∨ statement.semicolon = none ∧ finish = [';'])
      (tail : Pieces rest pieces) :
      Pieces (statement :: rest) ((gapOf statement.tokens ++ text ++ finish) :: pieces)

/-- How a wrapped source is made from its source. -/
structure Keeps (source wrapped : List Char) (statements : List Statement)
    (names pieces : List (List Char)) (trailing : List Char) : Prop where
  tokens : tokensOf statements = tokenize source
  laid : Laid [] statements
  source_eq : source = statements.flatMap Statement.source ++ trailing
  distinct : names.Nodup
  rendered : Pieces statements pieces
  wrapped_eq : wrapped = hoistedList names ++ "(async () => \x7b ".toList ++ pieces.flatten ++
    trailing ++ "\n \x7d)()".toList

theorem becomes_renderDeclaration {statement : Statement} (isLast : Bool)
    (kind : statement.kind = .declaration) :
    Becomes isLast statement (renderDeclaration statement.tokens).text := by
  unfold renderDeclaration
  split
  · rename_i parts
    exact .undeclared kind parts
  · rename_i names parts
    exact .dropped kind parts
  · rename_i names assignments nonempty parts
    exact .assignments kind parts nonempty fun _ mem => infix_of_mem_assignments parts mem

theorem becomes_renderNamed {statement : Statement} (isLast : Bool) {marks more : List Token}
    {name : Token} (kind : statement.kind = .namedFunction ∨ statement.kind = .namedClass)
    (named : NamedBy statement.tokens marks name more) :
    Becomes isLast statement (renderNamed statement.tokens).text := by
  unfold renderNamed
  cases missed : overlooks marks name with
  | false =>
      rw [declaredName?_of_namedBy named missed]
      exact .assigned kind named missed
  | true =>
      split
      · exact .unassigned kind named missed
      · rename_i text h
        rw [declaredName?_of_overlooks named missed] at h
        obtain ⟨other, later, identifier, rfl⟩ := exists_mem_of_declaredName? h
        exact .misassigned kind named missed later identifier

theorem becomes_render {before : List Token} {statement : Statement} {after : List Statement}
    (placed : Placed before statement after) (isLast : Bool) :
    Becomes isLast statement (render isLast statement).text := by
  have ofNamed : statement.kind = .namedFunction ∨ statement.kind = .namedClass →
      Becomes isLast statement (renderNamed statement.tokens).text := by
    intro kind
    obtain ⟨marks, name, more, named⟩ := placed.exists_namedBy kind
    exact becomes_renderNamed isLast kind named
  unfold render
  cases kind : statement.kind with
  | declaration => exact becomes_renderDeclaration isLast kind
  | namedFunction => exact ofNamed (.inl kind)
  | namedClass => exact ofNamed (.inr kind)
  | expression =>
      cases isLast with
      | false => exact .inner kind rfl
      | true => exact .value kind rfl
  | empty => exact .same (.inl kind)
  | block => exact .same (.inr (.inl kind))
  | doWhile => exact .same (.inr (.inr (.inl kind)))
  | other => exact .same (.inr (.inr (.inr kind)))

theorem terminator_eq (statement : Statement) (needsSemicolon : Bool) :
    terminator statement.semicolon needsSemicolon = statement.ending ∨
      statement.semicolon = none ∧
        terminator statement.semicolon needsSemicolon = [';'] := by
  unfold terminator ending
  cases statement.semicolon with
  | some token => exact .inl rfl
  | none =>
      cases needsSemicolon with
      | true => exact .inr ⟨rfl, rfl⟩
      | false => exact .inl rfl

theorem exists_pieces {before : List Token} {statements : List Statement}
    (laid : Laid before statements) :
    ∃ pieces, Pieces statements pieces ∧ renderAll statements = pieces.flatten := by
  induction statements generalizing before with
  | nil => exact ⟨[], .nil, rfl⟩
  | cons statement rest ih =>
      obtain ⟨pieces, hpieces, hrest⟩ := ih laid.2
      have becomes := becomes_render laid.1 (rest.all (·.kind == .empty))
      have ends := terminator_eq statement
        (render (rest.all (·.kind == .empty)) statement).needsSemicolon
      refine ⟨_, .cons becomes ends hpieces, ?_⟩
      rw [renderAll, hrest, List.flatten_cons, renderWithGap]

/-- Wrapping loses, duplicates and reorders no text of a source. -/
theorem exists_keeps_of_wrap? {source wrapped : List Char}
    (h : wrap? source = some wrapped) :
    ∃ names pieces trailing,
      Keeps source wrapped (split (tokenize source)) names pieces trailing := by
  simp only [wrap?, Option.ite_none_right_eq_some, Option.some.injEq] at h
  obtain ⟨-, rfl⟩ := h
  obtain ⟨pieces, hpieces, hrender⟩ := exists_pieces (laid_split (tokenize source))
  refine ⟨hoisted (split (tokenize source)), pieces, (Scan.ofSource source).trailing, ?_⟩
  exact {
    tokens := tokensOf_split _
    laid := laid_split _
    source_eq := by
      rw [flatMap_source, tokensOf_split]
      exact (Scan.source_ofSource source).symm
    distinct := hoisted_nodup _
    rendered := hpieces
    wrapped_eq := by
      rw [← hrender]
      rfl }

/-- A function before the suspension point. -/
theorem exists_keeps_of_wrap?_function :
    wrap? "function f() \x7b\x7d\nawait f()".toList =
        some "var f; (async () => \x7b f = function f() \x7b\x7d;\nreturn (await f());\n \x7d)()".toList ∧
      ∃ names pieces trailing, Keeps "function f() \x7b\x7d\nawait f()".toList
        "var f; (async () => \x7b f = function f() \x7b\x7d;\nreturn (await f());\n \x7d)()".toList
        (split (tokenize "function f() \x7b\x7d\nawait f()".toList)) names pieces trailing := by
  have wraps : wrap? "function f() \x7b\x7d\nawait f()".toList =
      some "var f; (async () => \x7b f = function f() \x7b\x7d;\nreturn (await f());\n \x7d)()".toList :=
    @wrap?_of_within 11 _ _
      ⟨[⟨.identifier, [], "function".toList⟩, ⟨.identifier, [' '], ['f']⟩,
        ⟨.punctuator, [], ['(']⟩, ⟨.punctuator, [], [')']⟩, ⟨.punctuator, [' '], ['\x7b']⟩,
        ⟨.punctuator, [], ['\x7d']⟩, ⟨.identifier, ['\n'], "await".toList⟩,
        ⟨.identifier, [' '], ['f']⟩, ⟨.punctuator, [], ['(']⟩, ⟨.punctuator, [], [')']⟩], []⟩
      (by decide) (by decide) (by decide)
  exact ⟨wraps, exists_keeps_of_wrap? wraps⟩

/-- A function by the name `async` is not assigned to that name. -/
theorem wrap?_function_async :
    wrap? "function async() \x7b\x7d\nawait x".toList =
      some "(async () => \x7b function async() \x7b\x7d\nreturn (await x);\n \x7d)()".toList :=
  @wrap?_of_within 9 _ _
    ⟨[⟨.identifier, [], "function".toList⟩, ⟨.identifier, [' '], "async".toList⟩,
      ⟨.punctuator, [], ['(']⟩, ⟨.punctuator, [], [')']⟩, ⟨.punctuator, [' '], ['\x7b']⟩,
      ⟨.punctuator, [], ['\x7d']⟩, ⟨.identifier, ['\n'], "await".toList⟩,
      ⟨.identifier, [' '], ['x']⟩], []⟩
    (by decide) (by decide) (by decide)

end AsyncWrap

end ScriptConsole

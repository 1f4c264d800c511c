import ScriptConsole.AsyncWrap
import ScriptConsole.Proofs.Declaration.Parts
import ScriptConsole.Proofs.Pattern.Names
import ScriptConsole.Proofs.Statement.Names
import ScriptConsole.Proofs.Token.Runs

/-!
# The tokens of a wrapped statement

What wrapping adds to a statement is tokens of its own, and what it keeps is
scanned as it was.  So the tokens of the new text of a statement are known from
the tokens of the statement.
-/

namespace ScriptConsole

open Token

namespace AsyncWrap

def word (text : String) : Token :=
  ⟨.identifier, [], text.toList⟩

def mark (text : String) : Token :=
  ⟨.punctuator, [], text.toList⟩

def assignmentTokens (assignment : Assignment) : List Token :=
  assignment.pattern ++ mark "=" :: assignment.initializer

theorem mem_assignmentTokens_iff {assignment : Assignment} {token : Token} :
    token ∈ assignmentTokens assignment ↔
      token = mark "=" ∨ token ∈ assignment.pattern ∨ token ∈ assignment.initializer := by
  rw [assignmentTokens, List.mem_append, List.mem_cons]
  exact or_left_comm

/-- The tokens of assignments with commas between them. -/
def assignmentsTokens (assignments : List Assignment) : List Token :=
  List.intercalate [mark ","] (assignments.map assignmentTokens)

@[simp] theorem assignmentsTokens_singleton (assignment : Assignment) :
    assignmentsTokens [assignment] = assignmentTokens assignment := by
  simp [assignmentsTokens, List.intercalate_singleton]

theorem assignmentsTokens_cons_cons (first next : Assignment) (others : List Assignment) :
    assignmentsTokens (first :: next :: others) =
      assignmentTokens first ++ mark "," :: assignmentsTokens (next :: others) := by
  simp [assignmentsTokens, List.intercalate_cons_cons]

theorem mem_assignmentsTokens {assignments : List Assignment} {assignment : Assignment}
    (mem : assignment ∈ assignments) {token : Token}
    (inside : token ∈ assignmentTokens assignment) : token ∈ assignmentsTokens assignments := by
  induction assignments with
  | nil => cases mem
  | cons first others ih =>
      cases others with
      | nil =>
          obtain rfl := List.mem_singleton.1 mem
          rwa [assignmentsTokens_singleton]
      | cons next more =>
          rw [assignmentsTokens_cons_cons]
          rcases List.mem_cons.1 mem with rfl | further
          · exact List.mem_append_left _ inside
          · exact List.mem_append_right _ (List.mem_cons_of_mem _ (ih further))

/-- The tokens of a function or class after the assignment to its name. -/
def namedTokens (tokens : List Token) : List Token :=
  match Declaration.declaredName? tokens with
  | none => tokens
  | some name => ⟨.identifier, [], name⟩ :: mark "=" :: tokens

def enclosed (opening : String) (tokens : List Token) : List Token :=
  word opening :: mark "(" :: (tokens ++ [mark ")"])

/-- The tokens of the new text of a statement, which may be the last. -/
def renderedTokens (isLast : Bool) (statement : Statement) : List Token :=
  match statement.kind with
  | .declaration =>
      match Declaration.ofTokens? statement.tokens with
      | none => statement.tokens
      | some ⟨_, []⟩ => []
      | some ⟨_, assignments⟩ => enclosed "void" (assignmentsTokens assignments)
  | .namedFunction | .namedClass => namedTokens statement.tokens
  | .expression => if isLast then enclosed "return" statement.tokens else statement.tokens
  | .empty | .block | .doWhile | .other => statement.tokens

theorem renderedTokens_of_assignments {statement : Statement} {declaration : Declaration}
    (kind : statement.kind = .declaration)
    (parts : Declaration.ofTokens? statement.tokens = some declaration)
    (nonempty : declaration.assignments ≠ []) (isLast : Bool) :
    renderedTokens isLast statement =
      enclosed "void" (assignmentsTokens declaration.assignments) := by
  obtain ⟨names, assignments⟩ := declaration
  obtain ⟨first, others, rfl⟩ := List.exists_cons_of_ne_nil nonempty
  simp only [renderedTokens, kind, parts]

theorem renderedTokens_of_dropped {statement : Statement} {declaration : Declaration}
    (kind : statement.kind = .declaration)
    (parts : Declaration.ofTokens? statement.tokens = some declaration)
    (nothing : declaration.assignments = []) (isLast : Bool) :
    renderedTokens isLast statement = [] := by
  obtain ⟨names, assignments⟩ := declaration
  obtain rfl : assignments = [] := nothing
  simp only [renderedTokens, kind, parts]

theorem render_of_assignments {statement : Statement} {declaration : Declaration}
    (kind : statement.kind = .declaration)
    (parts : Declaration.ofTokens? statement.tokens = some declaration)
    (nonempty : declaration.assignments ≠ []) (isLast : Bool) :
    render isLast statement = ⟨"void (".toList ++
      List.intercalate ", ".toList (declaration.assignments.map Assignment.render) ++ [')'],
      true⟩ := by
  obtain ⟨names, assignments⟩ := declaration
  obtain ⟨first, others, rfl⟩ := List.exists_cons_of_ne_nil nonempty
  simp only [render, kind, renderDeclaration, parts]

theorem render_of_dropped {statement : Statement} {declaration : Declaration}
    (kind : statement.kind = .declaration)
    (parts : Declaration.ofTokens? statement.tokens = some declaration)
    (nothing : declaration.assignments = []) (isLast : Bool) :
    render isLast statement = ⟨[], false⟩ := by
  obtain ⟨names, assignments⟩ := declaration
  obtain rfl : assignments = [] := nothing
  simp only [render, kind, renderDeclaration, parts]

/-- The ways in which a statement is rendered, each with the tokens of the new text. -/
inductive Renders (isLast : Bool) (statement : Statement) : Prop where
  | verbatim
      (whole : statement.kind = .declaration → Declaration.ofTokens? statement.tokens = none)
      (rendered : (render isLast statement).text = textOf statement.tokens)
      (tokens : renderedTokens isLast statement = statement.tokens)
  | named {name : List Char} (kind : statement.kind ≠ .declaration)
      (found : Declaration.declaredName? statement.tokens = some name)
      (rendered : render isLast statement =
        ⟨name ++ " = ".toList ++ textOf statement.tokens, true⟩)
      (tokens : renderedTokens isLast statement =
        ⟨.identifier, [], name⟩ :: mark "=" :: statement.tokens)
  | dropped {declaration : Declaration} (kind : statement.kind = .declaration)
      (parts : Declaration.ofTokens? statement.tokens = some declaration)
      (nothing : declaration.assignments = [])
      (rendered : render isLast statement = ⟨[], false⟩)
      (tokens : renderedTokens isLast statement = [])
  | assignments {declaration : Declaration} (kind : statement.kind = .declaration)
      (parts : Declaration.ofTokens? statement.tokens = some declaration)
      (nonempty : declaration.assignments ≠ [])
      (rendered : render isLast statement = ⟨"void (".toList ++
        List.intercalate ", ".toList (declaration.assignments.map Assignment.render) ++ [')'],
        true⟩)
      (tokens : renderedTokens isLast statement =
        enclosed "void" (assignmentsTokens declaration.assignments))
  | value (kind : statement.kind = .expression)
      (rendered : render isLast statement =
        ⟨"return (".toList ++ textOf statement.tokens ++ [')'], true⟩)
      (tokens : renderedTokens isLast statement = enclosed "return" statement.tokens)

theorem renders_of_renderNamed {isLast : Bool} {statement : Statement}
    (kind : statement.kind ≠ .declaration)
    (rendered : render isLast statement = renderNamed statement.tokens)
    (tokens : renderedTokens isLast statement = namedTokens statement.tokens) :
    Renders isLast statement := by
  unfold renderNamed at rendered
  unfold namedTokens at tokens
  cases found : Declaration.declaredName? statement.tokens with
  | none =>
      rw [found] at rendered tokens
      exact .verbatim (fun declares => absurd declares kind)
        (congrArg Rendering.text rendered) tokens
  | some name =>
      rw [found] at rendered tokens
      exact .named kind found rendered tokens

theorem renders (isLast : Bool) (statement : Statement) : Renders isLast statement := by
  cases kind : statement.kind with
  | declaration =>
      cases parts : Declaration.ofTokens? statement.tokens with
      | none =>
          refine .verbatim (fun _ => parts) ?_ ?_
          · simp only [render, kind, renderDeclaration, parts]
          · simp only [renderedTokens, kind, parts]
      | some declaration =>
          by_cases nothing : declaration.assignments = []
          · exact .dropped kind parts nothing (render_of_dropped kind parts nothing isLast)
              (renderedTokens_of_dropped kind parts nothing isLast)
          · exact .assignments kind parts nothing (render_of_assignments kind parts nothing isLast)
              (renderedTokens_of_assignments kind parts nothing isLast)
  | namedFunction =>
      exact renders_of_renderNamed (by simp [kind]) (by simp only [render, kind])
        (by simp only [renderedTokens, kind])
  | namedClass =>
      exact renders_of_renderNamed (by simp [kind]) (by simp only [render, kind])
        (by simp only [renderedTokens, kind])
  | expression =>
      cases isLast with
      | true => exact .value kind (by simp [render, kind]) (by simp [renderedTokens, kind])
      | false =>
          exact .verbatim (by simp [kind]) (by simp [render, kind]) (by simp [renderedTokens, kind])
  | empty =>
      exact .verbatim (by simp [kind]) (by simp [render, kind]) (by simp [renderedTokens, kind])
  | block =>
      exact .verbatim (by simp [kind]) (by simp [render, kind]) (by simp [renderedTokens, kind])
  | doWhile =>
      exact .verbatim (by simp [kind]) (by simp [render, kind]) (by simp [renderedTokens, kind])
  | other =>
      exact .verbatim (by simp [kind]) (by simp [render, kind]) (by simp [renderedTokens, kind])

theorem eq_or_mem_of_mem_assignmentsTokens {assignments : List Assignment} {token : Token}
    (mem : token ∈ assignmentsTokens assignments) :
    token.kind = .punctuator ∨ ∃ assignment ∈ assignments,
      token ∈ assignment.pattern ∨ token ∈ assignment.initializer := by
  induction assignments with
  | nil => cases mem
  | cons first others ih =>
      have own : token ∈ assignmentTokens first → token.kind = .punctuator ∨
          ∃ assignment ∈ first :: others,
            token ∈ assignment.pattern ∨ token ∈ assignment.initializer := by
        intro inside
        rcases mem_assignmentTokens_iff.1 inside with rfl | own
        · exact .inl rfl
        · exact .inr ⟨first, List.mem_cons_self, own⟩
      cases others with
      | nil =>
          rw [assignmentsTokens_singleton] at mem
          exact own mem
      | cons next more =>
          rw [assignmentsTokens_cons_cons] at mem
          rcases List.mem_append.1 mem with inFirst | inTail
          · exact own inFirst
          · rcases List.mem_cons.1 inTail with rfl | further
            · exact .inl rfl
            · refine (ih further).imp_right fun ⟨assignment, inOthers, found⟩ => ?_
              exact ⟨assignment, List.mem_cons_of_mem _ inOthers, found⟩

theorem mem_of_mem_enclosed {opening : String} {tokens : List Token} {token : Token}
    (mem : token ∈ enclosed opening tokens) :
    token ∈ tokens ∨ token.kind = .identifier ∨ token.kind = .punctuator := by
  rcases List.mem_cons.1 mem with rfl | mem
  · exact .inr (.inl rfl)
  · rcases List.mem_cons.1 mem with rfl | mem
    · exact .inr (.inr rfl)
    · rcases List.mem_append.1 mem with inside | isMark
      · exact .inl inside
      · obtain rfl := List.mem_singleton.1 isMark
        exact .inr (.inr rfl)

/-- The new text of a statement consists of tokens of the statement, names and marks. -/
theorem mem_renderedTokens {isLast : Bool} {statement : Statement} {token : Token}
    (mem : token ∈ renderedTokens isLast statement) :
    token ∈ statement.tokens ∨ token.kind = .identifier ∨ token.kind = .punctuator := by
  cases renders isLast statement with
  | verbatim whole rendered tokens =>
      rw [tokens] at mem
      exact .inl mem
  | named kind found rendered tokens =>
      rw [tokens, List.mem_cons, List.mem_cons] at mem
      rcases mem with rfl | rfl | own
      · exact .inr (.inl rfl)
      · exact .inr (.inr rfl)
      · exact .inl own
  | dropped kind parts nothing rendered tokens =>
      rw [tokens] at mem
      cases mem
  | assignments kind parts nonempty rendered tokens =>
      rw [tokens] at mem
      rcases mem_of_mem_enclosed mem with inside | added
      · rcases eq_or_mem_of_mem_assignmentsTokens inside with isMark | ⟨assignment, inParts, own⟩
        · exact .inr (.inr isMark)
        · obtain ⟨-, -, equals, -, inTokens⟩ :=
            Declaration.infix_of_mem_assignments parts inParts
          refine .inl (inTokens.subset ?_)
          rw [List.mem_append, List.mem_cons]
          exact own.imp_right .inr
      · exact .inr added
  | value kind rendered tokens =>
      rw [tokens] at mem
      exact mem_of_mem_enclosed mem

theorem isOpenLiteral_of_mem_renderedTokens {isLast : Bool} {statement : Statement}
    (closed : ∀ token ∈ statement.tokens, Lexeme.isOpenLiteral token.kind token.text = false)
    {token : Token} (mem : token ∈ renderedTokens isLast statement) :
    Lexeme.isOpenLiteral token.kind token.text = false := by
  rcases mem_renderedTokens mem with own | added
  · exact closed token own
  · exact Lexeme.isOpenLiteral_eq_false_of_kind added

/-- Whether nothing of a declaration is left: it makes no assignments. -/
def isDropped (statement : Statement) : Bool :=
  statement.kind == .declaration &&
    (Declaration.ofTokens? statement.tokens).any (·.assignments.isEmpty)

/-- Whether a semicolon ends the new text of a statement. -/
def endsWithSemicolon (isLast : Bool) (statement : Statement) : Bool :=
  statement.semicolon.isSome || (render isLast statement).needsSemicolon

/-- The tokens of the new text of a statement with what ends it. -/
def statementTokens (isLast : Bool) (statement : Statement) : List Token :=
  renderedTokens isLast statement ++
    if endsWithSemicolon isLast statement then [mark ";"] else []

/-- A statement as it was read after the token `previous`, up to the source `rest`. -/
structure ReadIn (previous : Option Token) (statement : Statement) (rest : List Char) :
    Prop where
  scanned : Scanned previous statement.allTokens rest
  divides : Divides previous statement.allTokens
  slash : ∀ first ∈ statement.tokens.head?, first.isSlash = true →
    Lexeme.allowsRegex previous = true
  keyword : statement.kind = .declaration →
    ∀ second ∈ statement.tokens.tail.head?, second.isSlash = false

theorem bareAfter_word {text : List Char} (name : IsName text) (previous : Option Token)
    (cs : List Char) :
    Scan.bareAfter previous (text ++ ' ' :: cs) =
      ⟨.identifier, [], text⟩ :: Scan.bareAfter (some ⟨.identifier, [], text⟩) cs := by
  rw [Scan.bareAfter_name name (by decide), Scan.bareAfter_space]

theorem bareAfter_enclosing {text : List Char} (name : IsName text) (previous : Option Token)
    (cs : List Char) :
    Scan.bareAfter previous (text ++ ' ' :: '(' :: cs) =
      ⟨.identifier, [], text⟩ :: mark "(" :: Scan.bareAfter (some (mark "(")) cs := by
  rw [bareAfter_word name, Scan.bareAfter_lone (by decide)]
  rfl

theorem bareAfter_return (previous : Option Token) (cs : List Char) :
    Scan.bareAfter previous ("return (".toList ++ cs) =
      word "return" :: mark "(" :: Scan.bareAfter (some (mark "(")) cs := by
  have name : IsName "return".toList := @isName_of_all 'r' "eturn".toList rfl rfl
  exact bareAfter_enclosing name previous cs

theorem bareAfter_void (previous : Option Token) (cs : List Char) :
    Scan.bareAfter previous ("void (".toList ++ cs) =
      word "void" :: mark "(" :: Scan.bareAfter (some (mark "(")) cs := by
  have name : IsName "void".toList := @isName_of_all 'v' "oid".toList rfl rfl
  exact bareAfter_enclosing name previous cs

theorem bareAfter_equals (previous : Option Token) (cs : List Char) :
    Scan.bareAfter previous (" = ".toList ++ cs) =
      mark "=" :: Scan.bareAfter (some (mark "=")) cs := by
  have read : Lexeme.read previous '=' (' ' :: cs) = ⟨.punctuator, [], ' ' :: cs⟩ := rfl
  have split : Trivia.split .between ('=' :: ' ' :: cs) = ([], '=' :: ' ' :: cs) := rfl
  have second := Scan.bareAfter_of_split split previous read
  rw [Scan.bareAfter_space] at second
  exact (Scan.bareAfter_space previous ('=' :: ' ' :: cs)).trans second

theorem bareAfter_assigned {name : List Char} (isName : IsName name)
    (previous : Option Token) (cs : List Char) :
    Scan.bareAfter previous (name ++ " = ".toList ++ cs) =
      ⟨.identifier, [], name⟩ :: mark "=" :: Scan.bareAfter (some (mark "=")) cs := by
  have space : ' ' ∈ barriers := by decide
  have first := Scan.bareAfter_name isName space previous ("= ".toList ++ cs)
  rw [← bareAfter_equals (some ⟨.identifier, [], name⟩)]
  simpa using first

/-- After a mark a slash is read as after the same mark that wrapping adds. -/
theorem allowsRegex_of_isPunctuator {token : Token} {text : String}
    (h : token.isPunctuator text = true) :
    Lexeme.allowsRegex (some token) = Lexeme.allowsRegex (some (mark text)) := by
  simp [Lexeme.allowsRegex, isPunctuatorIn, mark, isPunctuator_iff.1 h]

/-- A text before the mark `c` is scanned as the given tokens, after any token that
allows it. -/
def Spells (allowed : Option Token → Prop) (c : Char) (text : List Char)
    (tokens : List Token) : Prop :=
  ∀ previous, allowed previous → ∀ cs,
    Scan.bareAfter previous (text ++ c :: cs) =
      tokens ++ ⟨.punctuator, [], [c]⟩ :: Scan.bareAfter (some ⟨.punctuator, [], [c]⟩) cs

theorem intercalate_concat {α : Type} (separator : List α) (front : List (List α))
    (last : List α) :
    List.intercalate separator (front ++ [last]) = front.flatMap (· ++ separator) ++ last := by
  induction front with
  | nil => exact List.intercalate_singleton
  | cons item front ih =>
      have nonempty : front ++ [last] ≠ [] := by simp
      obtain ⟨next, others, hothers⟩ := List.exists_cons_of_ne_nil nonempty
      rw [List.cons_append, hothers, List.intercalate_cons_cons, ← hothers, ih,
        List.flatMap_cons]
      simp

/-- Texts with a comma after each are scanned as their tokens with a comma after each. -/
theorem exists_bareAfter_flatMap {α : Type} {allowed : Option Token → Prop}
    {text : α → List Char} {tokens : α → List Token} (comma : allowed (some (mark ",")))
    {items : List α} (each : ∀ item ∈ items, Spells allowed ',' (text item) (tokens item))
    {previous : Option Token} (start : allowed previous) (cs : List Char) :
    ∃ previous', allowed previous' ∧
      Scan.bareAfter previous (items.flatMap (text · ++ ", ".toList) ++ cs) =
        items.flatMap (tokens · ++ [mark ","]) ++ Scan.bareAfter previous' cs := by
  induction items generalizing previous with
  | nil => exact ⟨previous, start, rfl⟩
  | cons item items ih =>
      rw [List.forall_mem_cons] at each
      obtain ⟨previous', allows, further⟩ := ih each.2 comma
      refine ⟨previous', allows, ?_⟩
      have first := each.1 previous start (' ' :: (items.flatMap (text · ++ ", ".toList) ++ cs))
      rw [Scan.bareAfter_space] at first
      have whole := first.trans (congrArg (tokens item ++ mark "," :: ·) further)
      simpa using whole

/-- Texts with commas between them are scanned as their tokens with commas between
them. -/
theorem spells_intercalate {α : Type} {allowed : Option Token → Prop} {c : Char}
    {text : α → List Char} {tokens : α → List Token} (comma : allowed (some (mark ",")))
    {items : List α} (nonempty : items ≠ [])
    (each : ∀ item ∈ items, Spells allowed ',' (text item) (tokens item) ∧
      Spells allowed c (text item) (tokens item)) :
    Spells allowed c (List.intercalate ", ".toList (items.map text))
      (List.intercalate [mark ","] (items.map tokens)) := by
  intro previous start cs
  rw [← List.dropLast_concat_getLast nonempty] at each ⊢
  rw [List.map_append, List.map_append, List.map_singleton, List.map_singleton,
    intercalate_concat, intercalate_concat, List.flatMap_map, List.flatMap_map,
    List.append_assoc, List.append_assoc]
  obtain ⟨previous', allows, front⟩ := exists_bareAfter_flatMap comma
    (fun item mem => (each item (List.mem_append_left _ mem)).1) start
    (text (items.getLast nonempty) ++ c :: cs)
  rw [front, (each _ (List.mem_append_right _ (List.mem_singleton_self _))).2 _ allows]

/-- The text of an assignment before a comma or a closing bracket is scanned as its
tokens, wherever a slash may open a regular expression. -/
def Legible (assignment : Assignment) : Prop :=
  ∀ c ∈ [',', ')'], Spells (Lexeme.allowsRegex · = true) c assignment.render
    ((assignmentTokens assignment).map bare)

/-- The pattern of an assignment is scanned again before a new equals sign. -/
theorem bareAfter_pattern {previous previous' : Option Token} {pattern : List Token}
    {rest : List Char} (scanned : Scanned previous pattern rest)
    (divides : Divides previous pattern)
    (closed : ∀ token ∈ pattern, Lexeme.isOpenLiteral token.kind token.text = false)
    (slash : ∀ first ∈ pattern.head?, first.isSlash = true → Lexeme.allowsRegex previous = true)
    (allows : Lexeme.allowsRegex previous' = true) (cs : List Char) :
    Scan.bareAfter previous' (textOf pattern ++ (" = ".toList ++ cs)) =
      pattern.map bare ++ mark "=" :: Scan.bareAfter (some (mark "=")) cs := by
  have space : ' ' ∈ barriers := by decide
  rw [← bareAfter_equals (pattern.getLast?.or previous')]
  exact bareAfter_textOf scanned divides (.inr (.barrier space _ _))
    (fun _ last hlast => closed last (List.mem_of_getLast? hlast))
    fun first hfirst isSlash => allows.trans (slash first hfirst isSlash).symm

theorem legible_of_scanned {previous : Option Token} {assignment : Assignment} {equals : Token}
    {rest : List Char}
    (scanned : Scanned previous (assignment.pattern ++ equals :: assignment.initializer) rest)
    (divides : Divides previous (assignment.pattern ++ equals :: assignment.initializer))
    (closed : ∀ token ∈ assignmentTokens assignment,
      Lexeme.isOpenLiteral token.kind token.text = false)
    (isEquals : equals.isPunctuator "=" = true)
    (slash : ∀ first ∈ assignment.pattern.head?, first.isSlash = true →
      Lexeme.allowsRegex previous = true) : Legible assignment := by
  intro c hc previous' allows cs
  have ends : ∀ c ∈ [',', ')'], c ∈ barriers ∧ c ∈ Lexeme.loneMarks :=
    forall_mem_of_all (by decide)
  obtain ⟨patternScanned, tailScanned⟩ := Scanned.append_iff.1 scanned
  obtain ⟨patternDivides, tailDivides⟩ := divides_append_iff.1 divides
  have pattern := bareAfter_pattern patternScanned patternDivides
    (fun token mem => closed token (List.mem_append_left _ mem)) slash allows
    (textOf assignment.initializer ++ c :: cs)
  have opens : Lexeme.allowsRegex (some (mark "=")) = Lexeme.allowsRegex (some equals) :=
    (allowsRegex_of_isPunctuator isEquals).symm
  have initializer := bareAfter_textOf tailScanned.tail tailDivides.2
    (.inr (.barrier (ends c hc).1 _ cs))
    (fun _ last hlast => closed last
      (List.mem_append_right _ (List.mem_cons_of_mem _ (List.mem_of_getLast? hlast))))
    (fun _ _ _ => opens)
  have whole : assignment.render ++ c :: cs = textOf assignment.pattern ++
      (" = ".toList ++ (textOf assignment.initializer ++ c :: cs)) := by
    simp [Assignment.render]
  rw [Scan.bareAfter_lone (ends c hc).2] at initializer
  rw [whole, pattern, initializer]
  simp [assignmentTokens, bare, mark]

theorem exists_scanned_of_mem_partsAtTop {previous : Option Token} {tokens part : List Token}
    {rest : List Char} {depth : Nat} (scanned : Scanned previous tokens rest)
    (divides : Divides previous tokens)
    (slash : ∀ first ∈ tokens.head?, first.isSlash = true →
      Lexeme.allowsRegex previous = true)
    (mem : part ∈ Declaration.partsAtTop "," depth tokens) :
    ∃ previous' rest', Scanned previous' part rest' ∧ Divides previous' part ∧
      ∀ first ∈ part.head?, first.isSlash = true →
        Lexeme.allowsRegex previous' = true := by
  induction hparts : Declaration.partsAtTop "," depth tokens
    generalizing previous depth tokens with
  | nil => simp [hparts] at mem
  | cons first others ih =>
      rw [hparts, List.mem_cons] at mem
      rcases Declaration.cases_of_partsAtTop hparts with
        ⟨rfl, rfl⟩ | ⟨comma, more, rfl, isComma, -, hmore⟩
      · obtain rfl := mem.resolve_right List.not_mem_nil
        exact ⟨previous, rest, scanned, divides, slash⟩
      · obtain ⟨firstScanned, moreScanned⟩ := Scanned.append_iff.1 scanned
        obtain ⟨firstDivides, moreDivides⟩ := divides_append_iff.1 divides
        rcases mem with rfl | mem
        · refine ⟨previous, _, firstScanned, firstDivides, ?_⟩
          intro token htoken
          apply slash
          rw [List.head?_append, htoken]
          rfl
        · have opens := allowsRegex_of_isPunctuator isComma
          exact ih moreScanned.tail moreDivides.2 (fun _ _ _ => opens) (hmore ▸ mem) hmore

namespace ReadIn

variable {previous : Option Token} {statement : Statement} {rest : List Char}

theorem scanned_tokens (readIn : ReadIn previous statement rest) :
    Scanned previous statement.tokens (sourceOf statement.semicolon.toList ++ rest) :=
  (Scanned.append_iff.1 readIn.scanned).1

theorem divides_tokens (readIn : ReadIn previous statement rest) :
    Divides previous statement.tokens :=
  (divides_append_iff.1 readIn.divides).1

theorem exists_scanned_of_mem (readIn : ReadIn previous statement rest)
    (kind : statement.kind = .declaration) {part : List Token}
    (mem : part ∈ Declaration.partsAtTop "," 0 statement.tokens.tail) :
    ∃ previous' rest', Scanned previous' part rest' ∧ Divides previous' part ∧
      ∀ first ∈ part.head?, first.isSlash = true → Lexeme.allowsRegex previous' = true := by
  have scanned := readIn.scanned_tokens
  have divides := readIn.divides_tokens
  have slash := readIn.keyword kind
  cases htokens : statement.tokens with
  | nil =>
      rw [htokens] at mem
      obtain rfl := List.mem_singleton.1 mem
      exact ⟨none, [], .nil _ _, trivial, by simp⟩
  | cons keyword tail =>
      rw [htokens] at scanned divides slash mem
      refine exists_scanned_of_mem_partsAtTop scanned.tail divides.2 ?_ mem
      intro first hfirst isSlash
      rw [slash first hfirst] at isSlash
      cases isSlash

theorem legible (readIn : ReadIn previous statement rest)
    (kind : statement.kind = .declaration) {declaration : Declaration}
    (parts : Declaration.ofTokens? statement.tokens = some declaration)
    {assignment : Assignment} (mem : assignment ∈ declaration.assignments)
    (closed : ∀ token ∈ assignmentTokens assignment,
      Lexeme.isOpenLiteral token.kind token.text = false) :
    Legible assignment := by
  obtain ⟨part, inParts, single, hsingle, hmem⟩ :=
    Declaration.mem_assignments_of_ofDeclarators? parts mem
  obtain ⟨-, -, equals, isEquals, rfl⟩ := Declaration.eq_append_of_mem_assignments hsingle hmem
  obtain ⟨previous', rest', scanned, divides, slash⟩ := readIn.exists_scanned_of_mem kind inParts
  refine legible_of_scanned scanned divides closed isEquals ?_
  intro first hfirst
  apply slash
  rw [List.head?_append, hfirst]
  rfl

end ReadIn

theorem map_bare_intercalate (separator : List Token) (items : List (List Token)) :
    (List.intercalate separator items).map bare =
      List.intercalate (separator.map bare) (items.map (·.map bare)) := by
  induction items with
  | nil => rfl
  | cons item items ih =>
      cases items with
      | nil => simp [List.intercalate_singleton]
      | cons next others =>
          rw [List.intercalate_cons_cons, List.map_append, List.map_append, ih]
          simp [List.intercalate_cons_cons]

/-- Assignments with commas between them are scanned as their tokens. -/
theorem bareAfter_assignments {assignments : List Assignment} (nonempty : assignments ≠ [])
    (legible : ∀ assignment ∈ assignments, Legible assignment) {previous : Option Token}
    (allows : Lexeme.allowsRegex previous = true) (cs : List Char) :
    Scan.bareAfter previous
        (List.intercalate ", ".toList (assignments.map Assignment.render) ++ ')' :: cs) =
      (assignmentsTokens assignments).map bare ++
        mark ")" :: Scan.bareAfter (some (mark ")")) cs := by
  have opens : Lexeme.allowsRegex (some (mark ",")) = true := rfl
  have whole := @spells_intercalate _ _ ')' _ _ opens _ nonempty
    (fun assignment mem => ⟨legible assignment mem ',' (by decide),
      legible assignment mem ')' (by decide)⟩) previous allows cs
  rw [assignmentsTokens, map_bare_intercalate, List.map_map]
  exact whole

namespace ReadIn

variable {previous : Option Token} {statement : Statement} {rest : List Char}

/-- The tokens of a statement are scanned again where a slash may open a regular
expression if one opens the statement. -/
theorem bareAfter_textOf (readIn : ReadIn previous statement rest) {previous' : Option Token}
    {rest' : List Char}
    (slash : ∀ first ∈ statement.tokens.head?, first.isSlash = true →
      Lexeme.allowsRegex previous' = true)
    (apart : Apart statement.tokens (sourceOf statement.semicolon.toList ++ rest) rest')
    (closed : ∀ token ∈ statement.tokens, Lexeme.isOpenLiteral token.kind token.text = false) :
    Scan.bareAfter previous' (textOf statement.tokens ++ rest') =
      statement.tokens.map bare ++
        Scan.bareAfter (statement.tokens.getLast?.or previous') rest' := by
  refine ScriptConsole.bareAfter_textOf readIn.scanned_tokens readIn.divides_tokens apart ?_ ?_
  · intro _ last hlast
    exact closed last (List.mem_of_getLast? hlast)
  · intro first hfirst isSlash
    rw [slash first hfirst isSlash, readIn.slash first hfirst isSlash]

theorem bareAfter_named (readIn : ReadIn previous statement rest) {previous' : Option Token}
    {rest' name : List Char} (found : Declaration.declaredName? statement.tokens = some name)
    (apart : Apart statement.tokens (sourceOf statement.semicolon.toList ++ rest) rest')
    (closed : ∀ token ∈ statement.tokens, Lexeme.isOpenLiteral token.kind token.text = false) :
    ∃ previous'', Scan.bareAfter previous'
        (name ++ " = ".toList ++ textOf statement.tokens ++ rest') =
      ⟨.identifier, [], name⟩ :: mark "=" :: (statement.tokens.map bare ++
        Scan.bareAfter previous'' rest') := by
  obtain ⟨token, mem, identifier, rfl⟩ := Declaration.exists_mem_of_declaredName? found
  have isName := readIn.scanned_tokens.isName mem identifier
  have equals : Lexeme.allowsRegex (some (mark "=")) = true := rfl
  refine ⟨statement.tokens.getLast?.or (some (mark "=")), ?_⟩
  rw [← readIn.bareAfter_textOf (fun _ _ _ => equals) apart closed, ← bareAfter_assigned isName,
    List.append_assoc]

theorem exists_bareAfter_render (readIn : ReadIn previous statement rest) (isLast : Bool)
    {previous' : Option Token} {rest' : List Char}
    (slash : ∀ first ∈ statement.tokens.head?, first.isSlash = true →
      Lexeme.allowsRegex previous' = true)
    (apart : Apart statement.tokens (sourceOf statement.semicolon.toList ++ rest) rest')
    (closed : ∀ token ∈ renderedTokens isLast statement,
      Lexeme.isOpenLiteral token.kind token.text = false) :
    ∃ previous'', Scan.bareAfter previous' ((render isLast statement).text ++ rest') =
        (renderedTokens isLast statement).map bare ++ Scan.bareAfter previous'' rest' ∧
      ((render isLast statement).needsSemicolon = true ∨
        isDropped statement = true ∧ previous'' = previous' ∨
          previous'' = statement.tokens.getLast?.or previous') := by
  cases renders isLast statement with
  | verbatim whole rendered tokens =>
      rw [tokens] at closed ⊢
      rw [rendered]
      exact ⟨_, readIn.bareAfter_textOf slash apart closed, .inr (.inr rfl)⟩
  | named kind found rendered tokens =>
      rw [tokens] at closed ⊢
      rw [rendered]
      obtain ⟨previous'', named⟩ := @bareAfter_named _ _ _ readIn previous' _ _ found apart
        fun token mem => closed token (List.mem_cons_of_mem _ (List.mem_cons_of_mem _ mem))
      exact ⟨previous'', named, .inl rfl⟩
  | dropped kind parts nothing rendered tokens =>
      rw [rendered, tokens]
      exact ⟨previous', rfl, .inr (.inl ⟨by simp [isDropped, kind, parts, nothing], rfl⟩)⟩
  | @assignments declaration kind parts nonempty rendered tokens =>
      rw [tokens] at closed ⊢
      rw [rendered]
      have legible : ∀ assignment ∈ declaration.assignments, Legible assignment := by
        intro assignment mem
        refine readIn.legible kind parts mem fun token inside => closed token ?_
        refine List.mem_cons_of_mem _ (List.mem_cons_of_mem _ ?_)
        exact List.mem_append_left _ (mem_assignmentsTokens mem inside)
      have opens : Lexeme.allowsRegex (some (mark "(")) = true := rfl
      have inner := bareAfter_assignments nonempty legible opens rest'
      have whole := (bareAfter_void previous' _).trans
        (congrArg (fun tokens => word "void" :: mark "(" :: tokens) inner)
      refine ⟨some (mark ")"), ?_, .inl rfl⟩
      simpa [List.append_assoc, enclosed, bare, word, mark] using whole
  | value kind rendered tokens =>
      rw [tokens] at closed ⊢
      rw [rendered]
      have opens : Lexeme.allowsRegex (some (mark "(")) = true := rfl
      have barrier : ')' ∈ barriers := by decide
      have inner := readIn.bareAfter_textOf (fun _ _ _ => opens)
        (.inr (.barrier barrier _ rest')) fun token mem => closed token
          (List.mem_cons_of_mem _ (List.mem_cons_of_mem _ (List.mem_append_left _ mem)))
      rw [Scan.bareAfter_lone (by decide)] at inner
      have whole := (bareAfter_return previous' _).trans
        (congrArg (fun tokens => word "return" :: mark "(" :: tokens) inner)
      refine ⟨some (mark ")"), ?_, .inl rfl⟩
      simpa [List.append_assoc, enclosed, bare, word, mark] using whole

/-- A statement with the gap before it and what ends it is scanned as its tokens.
After it a slash is read as after the statement in its source, or opens a regular
expression, unless all of the statement is left out. -/
theorem exists_bareAfter_renderWithGap (readIn : ReadIn previous statement rest)
    (isSemicolon : ∀ token ∈ statement.semicolon, token.isPunctuator ";" = true)
    (isLast : Bool) {previous' : Option Token} {rest' : List Char}
    (slash : ∀ first ∈ statement.tokens.head?, first.isSlash = true →
      Lexeme.allowsRegex previous' = true)
    (apart : statement.semicolon = none → Apart statement.tokens rest rest')
    (closed : ∀ token ∈ renderedTokens isLast statement,
      Lexeme.isOpenLiteral token.kind token.text = false) :
    ∃ previous'', Scan.bareAfter previous' (renderWithGap isLast statement ++ rest') =
        (statementTokens isLast statement).map bare ++ Scan.bareAfter previous'' rest' ∧
      (Lexeme.allowsRegex previous'' = true ∨ statement.semicolon = none ∧
        (isDropped statement = true ∧ previous'' = previous' ∨
          previous'' = statement.tokens.getLast?.or previous')) := by
  have ends : ∀ (previous : Option Token) (cs : List Char),
      Scan.bareAfter previous (';' :: cs) =
        mark ";" :: Scan.bareAfter (some (mark ";")) cs :=
    Scan.bareAfter_lone (by decide)
  rw [renderWithGap, List.append_assoc, List.append_assoc,
    Scan.bareAfter_append_of_whole readIn.scanned_tokens.whole_gapOf, statementTokens,
    endsWithSemicolon, List.map_append]
  have barrier : ';' ∈ barriers := by decide
  have opens : Lexeme.allowsRegex (some (mark ";")) = true := rfl
  cases hsemicolon : statement.semicolon with
  | some token =>
      have htext : token.text = [';'] := (isPunctuator_iff.1 (isSemicolon token hsemicolon)).2
      have whole : Trivia.Whole token.gap :=
        readIn.scanned.whole_gap (by simp [Statement.allTokens, hsemicolon])
      have apart' : Apart statement.tokens (sourceOf statement.semicolon.toList ++ rest)
          (token.gap ++ ';' :: rest') := by
        have source : sourceOf statement.semicolon.toList ++ rest =
            token.gap ++ ';' :: rest := by
          rw [hsemicolon]
          simp [htext]
        rw [source]
        exact .inr ((Alike.barrier barrier (';' :: rest) rest').append token.gap)
      obtain ⟨previous'', tokens, -⟩ := readIn.exists_bareAfter_render isLast slash apart' closed
      refine ⟨some (mark ";"), ?_, .inl opens⟩
      rw [Scan.bareAfter_append_of_whole whole, ends] at tokens
      simpa [terminator, Token.source, htext, bare, mark] using tokens
  | none =>
      cases needs : (render isLast statement).needsSemicolon with
      | true =>
          have apart' : Apart statement.tokens (sourceOf statement.semicolon.toList ++ rest)
              (';' :: rest') := .inr (.barrier barrier _ rest')
          obtain ⟨previous'', tokens, -⟩ :=
            readIn.exists_bareAfter_render isLast slash apart' closed
          refine ⟨some (mark ";"), ?_, .inl opens⟩
          rw [ends] at tokens
          simpa [terminator, needs, bare, mark] using tokens
      | false =>
          have apart' : Apart statement.tokens (sourceOf statement.semicolon.toList ++ rest)
              rest' := by
            rw [hsemicolon]
            exact apart hsemicolon
          obtain ⟨previous'', tokens, after⟩ :=
            readIn.exists_bareAfter_render isLast slash apart' closed
          rw [needs] at after
          refine ⟨previous'', ?_, .inr ⟨rfl, after.resolve_left Bool.false_ne_true⟩⟩
          simpa [terminator, needs] using tokens

end ReadIn

end AsyncWrap

end ScriptConsole

import ScriptConsole.Proofs.Nesting.Outside
import ScriptConsole.Proofs.Suspension.Bodies
import ScriptConsole.Proofs.Token.Scanning

/-!
# How far an arrow body without braces goes

For the search an arrow body without braces ends at a comma, a semicolon, a line
break that ends a statement, or the bracket that closes around it.  The colon of
a conditional expression is none of these, so the branch after it is searched as
part of the body, and an `await` there is not found.
-/

namespace ScriptConsole.Suspension

open Token

namespace Context

/-- Inside a concise arrow body that has begun here or further out. -/
def inArrow (context : Context) : Bool :=
  context.arrows.any (· ≤ context.depth)

theorem nested_of_inArrow {context : Context} (inside : context.inArrow = true) :
    context.nested = true := by
  unfold inArrow at inside
  cases arrows : context.arrows with
  | nil => simp [arrows] at inside
  | cons arrow rest => simp [nested, arrows]

theorem enclosed_enter_of_inArrow {context : Context} (inside : context.inArrow = true)
    (before : List Token) (bracket : Bracket) : (context.enter before bracket).enclosed = true := by
  obtain ⟨arrow, mem, notFurther⟩ := List.any_eq_true.1 inside
  refine Bool.or_eq_true_iff.2 (.inr (List.any_eq_true.2 ⟨arrow, mem, decide_eq_true ?_⟩))
  exact Nat.lt_succ_of_le (of_decide_eq_true notFurther)

theorem inArrow_iff {context : Context} :
    context.inArrow = true ↔ context.arrows.dropWhile (context.depth < ·) ≠ [] := by
  simp [inArrow, List.dropWhile_eq_nil_iff]

/-- A bracket that closes ends no arrow body begun outside of it. -/
theorem inArrow_leave_enter {context : Context} (inside : context.inArrow = true)
    (before : List Token) (opening closing : Bracket) :
    ((context.enter before opening).leave closing).inArrow = true := by
  rw [inArrow_iff] at inside ⊢
  have twice := dropWhile_dropWhile_of_imp (p := (context.depth < ·)) (q := (context.depth < ·))
    (fun _ further => further) context.arrows
  exact twice.symm ▸ inside

/-- A token that is no bracket changes no frame, and only an arrow before something other
than a curly bracket begins an arrow body. -/
theorem advance_plain_fields {token : Token} (opens : token.opens? = none)
    (closes : token.closes? = none) (context : Context) (before : List Token)
    (next : Option Token) :
    (context.advance before token next).frames = context.frames ∧
      (context.advance before token next).arrows =
        if token.isPunctuator "=>" && !(next.any (·.opensWith .curly)) then
          context.depth :: context.arrows
        else context.arrows := by
  simp only [advance, opens, closes]
  split
  · exact ⟨rfl, rfl⟩
  · split <;> exact ⟨rfl, rfl⟩

theorem inArrow_advance_plain {token : Token} (opens : token.opens? = none)
    (closes : token.closes? = none) {context : Context} (inside : context.inArrow = true)
    (before : List Token) (next : Option Token) :
    (context.advance before token next).inArrow = true := by
  obtain ⟨frames, arrows⟩ := advance_plain_fields opens closes context before next
  rw [inArrow, depth, frames, arrows]
  split
  · exact Bool.or_eq_true_iff.2 (.inr inside)
  · exact inside

/-- Without an arrow outside brackets a run begins no arrow body that outlasts it. -/
theorem arrows_run_eq_nil {tokens : List Token} (nested : WellNested tokens)
    (noArrow : ∀ token ∈ outside tokens, token.isPunctuator "=>" = false)
    (before : List Token) {context : Context} (none : context.arrows = [])
    (next : Option Token) : (context.run before next tokens).arrows = [] := by
  induction nested generalizing before context next with
  | nil => exact none
  | @plain token rest opens closes tail ih =>
      rw [outside_plain opens closes, List.forall_mem_cons] at noArrow
      rw [run, settle_of_arrows_eq_nil none]
      refine ih noArrow.2 _ ?_ _
      rw [(advance_plain_fields opens closes context before _).2, noArrow.1, Bool.false_and,
        if_neg Bool.false_ne_true, none]
  | @group opening closing inner rest bracket opens closes within tail ihWithin ihTail =>
      rw [outside_group opens closes within, List.forall_mem_cons] at noArrow
      rw [run, run_append, run, advance_of_opens opens, advance_of_closes closes,
        leave_settle_of_agreesOutside (agreesOutside_run within _ _ _),
        settle_of_arrows_eq_nil none]
      refine ihTail noArrow.2 _ ?_ _
      simp [leave, enter, none]

end Context

/-- Nothing is found in a run that ends no arrow body and begins inside one. -/
theorem found_eq_false_of_inArrow {tokens : List Token} (nested : WellNested tokens)
    (goesOn : ∀ token ∈ outside tokens, ∀ previous, endsArrow previous token = false)
    (before : List Token) {context : Context} (inside : context.inArrow = true)
    (next : Option Token) : found before context next tokens = false := by
  have unsettled (previous : Option Token) {token : Token} (context : Context)
      (goesOn : ∀ previous, endsArrow previous token = false) :
      context.settle previous token = context := by
    simp [Context.settle, goesOn]
  have hidden (previous : Option Token) {context : Context} (token : Token)
      (next : Option Token) (nested : (context.settle previous token).nested = true) :
      pointAt previous context token next = false := by
    simp [pointAt, nested]
  induction nested generalizing before context next with
  | nil => rfl
  | @plain token rest opens closes tail ih =>
      rw [outside_plain opens closes, List.forall_mem_cons] at goesOn
      have same := unsettled before.head? context goesOn.1
      rw [found, hidden _ _ _ (by rw [same]; exact Context.nested_of_inArrow inside), same,
        Bool.false_or]
      exact ih goesOn.2 _ (Context.inArrow_advance_plain opens closes inside _ _) _
  | @group opening closing inner rest bracket opens closes within tail ihWithin ihTail =>
      rw [outside_group opens closes within, List.forall_mem_cons] at goesOn
      have same := unsettled before.head? context goesOn.1
      have entered := Context.enclosed_enter_of_inArrow inside before bracket
      rw [found, pointAt_punctuator (opens?_eq_some_iff.1 opens).1, same, Bool.false_or,
        Context.advance_of_opens opens, found_append, found_eq_false_of_enclosed within _ _ entered,
        Bool.false_or, found, pointAt_punctuator (closes?_eq_some_iff.1 closes).1, Bool.false_or,
        Context.advance_of_closes closes,
        Context.leave_settle_of_agreesOutside (Context.agreesOutside_run within _ _ _)]
      exact ihTail goesOn.2 _ (Context.inArrow_leave_enter inside before bracket bracket) _

/-- The tokens of `condition ? parameter => body : await alternative`.  No part of it goes
on past its own end: outside brackets there is no comma, semicolon, arrow or further choice,
and no line break before or after the colon. -/
structure ArrowChoice where
  condition : List Token
  question : Token
  parameter : Token
  arrow : Token
  body : List Token
  colon : Token
  word : Token
  alternative : List Token
  isQuestion : question.isPunctuator "?" = true
  isParameter : parameter.isIdentifier = true
  isArrow : arrow.isPunctuator "=>" = true
  isColon : colon.isPunctuator ":" = true
  isAwait : word.isWord "await" = true
  nestedCondition : WellNested condition
  nestedBody : WellNested body
  nestedAlternative : WellNested alternative
  single : ∀ token ∈ outside condition ++ outside body ++ outside alternative,
    token.isPunctuatorIn [",", ";", "?", ":", "=>"] = false
  oneLine : ∀ token ∈ outside body ++ colon :: word :: outside alternative,
    token.startsLine = false
  operand : alternative.head?.any (fun token => token.kind != .punctuator || token.isOpener) = true

namespace ArrowChoice

/-- The choice up to the parameter of its arrow function. -/
def lead (choice : ArrowChoice) : List Token :=
  choice.condition ++ [choice.question, choice.parameter]

/-- The body of the arrow function and the other branch. -/
def branches (choice : ArrowChoice) : List Token :=
  choice.body ++ choice.colon :: choice.word :: choice.alternative

def tokens (choice : ArrowChoice) : List Token :=
  choice.lead ++ choice.arrow :: choice.branches

/-- Whether the body of the arrow function is in braces. -/
def hasBlock (choice : ArrowChoice) : Bool :=
  choice.body.head?.any (·.opensWith .curly)

variable (choice : ArrowChoice)

theorem plain_question : choice.question.opens? = none ∧ choice.question.closes? = none :=
  plain_of_isPunctuator (by simp) choice.isQuestion

theorem plain_parameter : choice.parameter.opens? = none ∧ choice.parameter.closes? = none :=
  plain_of_isIdentifier choice.isParameter

theorem plain_arrow : choice.arrow.opens? = none ∧ choice.arrow.closes? = none :=
  plain_of_isPunctuator (by simp) choice.isArrow

theorem plain_colon : choice.colon.opens? = none ∧ choice.colon.closes? = none :=
  plain_of_isPunctuator (by simp) choice.isColon

theorem plain_word : choice.word.opens? = none ∧ choice.word.closes? = none :=
  plain_of_isIdentifier (isIdentifier_of_isWord choice.isAwait)

theorem nested_lead : WellNested choice.lead :=
  choice.nestedCondition.append (.plain choice.plain_question.1 choice.plain_question.2
    (.plain choice.plain_parameter.1 choice.plain_parameter.2 .nil))

theorem nested_branches : WellNested choice.branches :=
  choice.nestedBody.append (.plain choice.plain_colon.1 choice.plain_colon.2
    (.plain choice.plain_word.1 choice.plain_word.2 choice.nestedAlternative))

/-- No arrow function begins outside brackets before the parameter of the one in the choice. -/
theorem noArrow_lead : ∀ token ∈ outside choice.lead, token.isPunctuator "=>" = false := by
  intro token mem
  rw [lead, outside_append choice.nestedCondition, outside_plain choice.plain_question.1
    choice.plain_question.2, outside_plain choice.plain_parameter.1 choice.plain_parameter.2,
    outside_nil, List.mem_append, List.mem_cons, List.mem_singleton] at mem
  rcases mem with mem | rfl | rfl
  · exact isPunctuator_eq_false (by simp) (choice.single token (by simp [mem]))
  · simp [isPunctuator, (isPunctuator_iff.1 choice.isQuestion).2]
  · have kind : choice.parameter.kind = .identifier := by
      simpa [isIdentifier] using choice.isParameter
    simp [isPunctuator, kind]

theorem not_endsArrow_branches :
    ∀ token ∈ outside choice.branches, ∀ previous, endsArrow previous token = false := by
  intro token mem previous
  rw [branches, outside_append choice.nestedBody, outside_plain choice.plain_colon.1
    choice.plain_colon.2, outside_plain choice.plain_word.1 choice.plain_word.2] at mem
  have sameLine := choice.oneLine token mem
  have noMark : token.isPunctuator "," = false ∧ token.isPunctuator ";" = false := by
    simp only [List.mem_append, List.mem_cons] at mem
    rcases mem with mem | rfl | rfl | mem
    · have other := choice.single token (by simp [mem])
      exact ⟨isPunctuator_eq_false (by simp) other, isPunctuator_eq_false (by simp) other⟩
    · simp [isPunctuator, (isPunctuator_iff.1 choice.isColon).2]
    · simp [isPunctuator, (isWord_iff.1 choice.isAwait).1]
    · have other := choice.single token (by simp [mem])
      exact ⟨isPunctuator_eq_false (by simp) other, isPunctuator_eq_false (by simp) other⟩
  simp [endsArrow, noMark, sameLine]

theorem operator_word :
    isOperatorBetween (some choice.colon) choice.alternative.head? = true := by
  obtain ⟨kind, text⟩ := isPunctuator_iff.1 choice.isColon
  obtain ⟨token, first, operand⟩ := (Option.any_eq_true _ _).1 choice.operand
  have begins : token.isPunctuatorIn nonOperandPunctuators = false := by
    rw [Bool.or_eq_true] at operand
    rcases operand with other | opens
    · have kind : token.kind ≠ .punctuator := by simpa using other
      simp [isPunctuatorIn, kind]
    · obtain ⟨bracket, opens⟩ := Option.isSome_iff_exists.1 opens
      obtain ⟨kind, text⟩ := opens?_eq_some_iff.1 opens
      cases bracket <;> simp [isPunctuatorIn, kind, text, nonOperandPunctuators, Bracket.opening]
  have noMember : choice.colon.isPunctuatorIn [".", "?."] = false := by
    simp [isPunctuatorIn, kind, text]
  simp [isOperatorBetween, first, begins, noMember]

/-- Up to the arrow only the condition can hold a suspension point. -/
theorem found_lead :
    found [] .outermost (some choice.arrow) choice.lead =
      suspends (choice.condition ++ [choice.question]) := by
  have question := (isPunctuator_iff.1 choice.isQuestion).1
  obtain ⟨arrow, text⟩ := isPunctuator_iff.1 choice.isArrow
  have parameter (previous : Option Token) (context : Context) :
      pointAt previous context choice.parameter (some choice.arrow) = false := by
    have kind : choice.parameter.kind = .identifier := by
      simpa [isIdentifier] using choice.isParameter
    simp [pointAt, kind, isOperatorBetween, isPunctuatorIn, arrow, text, nonOperandPunctuators]
  rw [suspends_eq_found, lead, found_append, found_append]
  simp [found, pointAt_punctuator question, parameter]

def afterArrow : Context :=
  (Context.outermost.run [] (some choice.arrow) choice.lead).advance choice.lead.reverse
    choice.arrow choice.branches.head?

/-- After the arrow no bracket is open, and an arrow body has begun unless it is a block. -/
theorem afterArrow_fields :
    choice.afterArrow.frames = [] ∧
      choice.afterArrow.arrows = if choice.hasBlock then [] else [0] := by
  have outer := Context.agreesOutside_run choice.nested_lead [] .outermost (some choice.arrow)
  have none := Context.arrows_run_eq_nil choice.nested_lead choice.noArrow_lead []
    (rfl : Context.outermost.arrows = []) (some choice.arrow)
  obtain ⟨frames, arrows⟩ := Context.advance_plain_fields choice.plain_arrow.1
    choice.plain_arrow.2 (Context.outermost.run [] (some choice.arrow) choice.lead)
    choice.lead.reverse choice.branches.head?
  have block : choice.branches.head?.any (·.opensWith .curly) = choice.hasBlock := by
    unfold branches hasBlock
    cases choice.body with
    | nil => simp [opensWith, choice.plain_colon.1]
    | cons token rest => rfl
  refine ⟨frames.trans outer.frames, arrows.trans ?_⟩
  rw [choice.isArrow, block, none, outer.depth]
  cases choice.hasBlock <;> rfl

theorem suspends_tokens_eq :
    suspends choice.tokens =
      (suspends (choice.condition ++ [choice.question]) ||
        suspendsAfter (choice.arrow :: choice.lead.reverse) choice.afterArrow
          choice.branches) := by
  have none := Context.arrows_run_eq_nil choice.nested_lead choice.noArrow_lead []
    (rfl : Context.outermost.arrows = []) (some choice.arrow)
  have kind := (isPunctuator_iff.1 choice.isArrow).1
  rw [suspends, tokens, suspendsAfter_append, List.head?_cons, found_lead,
    suspendsAfter_cons_eq_pointAt, pointAt_punctuator kind, Bool.false_or,
    Context.settle_of_arrows_eq_nil none, List.append_nil, afterArrow]

/-- After an arrow before a block the branch that awaits is outside all bodies. -/
theorem suspendsAfter_branches_of_block (before : List Token) {context : Context}
    (outer : context.frames = []) (none : context.arrows = []) :
    suspendsAfter before context choice.branches = true := by
  have colon := isPunctuator_iff.1 choice.isColon
  have nested : WellNested (choice.body ++ [choice.colon]) :=
    choice.nestedBody.append (.plain choice.plain_colon.1 choice.plain_colon.2 .nil)
  have noArrow : ∀ token ∈ outside (choice.body ++ [choice.colon]),
      token.isPunctuator "=>" = false := by
    intro token mem
    rw [outside_append choice.nestedBody, outside_plain choice.plain_colon.1
      choice.plain_colon.2, outside_nil, List.mem_append, List.mem_singleton] at mem
    rcases mem with mem | rfl
    · exact isPunctuator_eq_false (by simp) (choice.single token (by simp [mem]))
    · simp [isPunctuator, colon.2]
  have parts : choice.branches =
      choice.body ++ [choice.colon] ++ choice.word :: choice.alternative := by simp [branches]
  have kept := Context.agreesOutside_run nested before context (some choice.word)
  have arrows := Context.arrows_run_eq_nil nested noArrow before none (some choice.word)
  have point (context : Context) (outer : context.frames = []) (none : context.arrows = []) :
      pointAt (some choice.colon) context choice.word choice.alternative.head? = true := by
    rw [pointAt, Context.settle_of_arrows_eq_nil none]
    simp [Context.nested, none, outer, choice.isAwait, choice.operator_word]
  rw [parts, suspendsAfter_append, List.head?_cons, suspendsAfter_cons_eq_pointAt]
  simp [point _ (kept.frames.trans outer) arrows]

/-- A choice suspends if its condition does or the body of its arrow function is a block: a
body without braces takes in the branch that awaits. -/
theorem suspends_eq_or_hasBlock :
    suspends choice.tokens =
      (suspends (choice.condition ++ [choice.question]) || choice.hasBlock) := by
  obtain ⟨frames, arrows⟩ := choice.afterArrow_fields
  rw [suspends_tokens_eq]
  congr 1
  cases block : choice.hasBlock with
  | false =>
      have inside : choice.afterArrow.inArrow = true := by
        rw [Context.inArrow, arrows, block]
        simp
      have whole := suspendsAfter_append (choice.arrow :: choice.lead.reverse) choice.afterArrow
        choice.branches []
      rw [List.append_nil, suspendsAfter_nil, Bool.or_false] at whole
      rw [whole]
      exact found_eq_false_of_inArrow choice.nested_branches choice.not_endsArrow_branches _
        inside _
  | true =>
      rw [block, if_pos rfl] at arrows
      exact choice.suspendsAfter_branches_of_block _ frames arrows

/-- The choice `c ? p => e : await a`. -/
def bare : ArrowChoice where
  condition := [⟨.identifier, [], ['c']⟩]
  question := ⟨.punctuator, [' '], ['?']⟩
  parameter := ⟨.identifier, [' '], ['p']⟩
  arrow := ⟨.punctuator, [' '], ['=', '>']⟩
  body := [⟨.identifier, [' '], ['e']⟩]
  colon := ⟨.punctuator, [' '], [':']⟩
  word := ⟨.identifier, [' '], "await".toList⟩
  alternative := [⟨.identifier, [' '], ['a']⟩]
  isQuestion := by decide
  isParameter := by decide
  isArrow := by decide
  isColon := by decide
  isAwait := by decide
  nestedCondition := wellNested_of_plain (by decide)
  nestedBody := wellNested_of_plain (by decide)
  nestedAlternative := wellNested_of_plain (by decide)
  single := by decide
  oneLine := by decide
  operand := by decide

theorem suspends_eq_or_hasBlock_bare :
    suspends bare.tokens = (suspends (bare.condition ++ [bare.question]) || bare.hasBlock) :=
  bare.suspends_eq_or_hasBlock

/-- The branch that awaits is searched as part of the arrow function before the colon. -/
theorem suspends_bare_eq_false :
    tokenize "c ? p => e : await a".toList = bare.tokens ∧ suspends bare.tokens = false := by
  have scanned : Scan.within 9 none "c ? p => e : await a".toList = some ⟨bare.tokens, []⟩ := by
    decide
  refine ⟨congrArg Scan.tokens (Scan.ofSource_of_within scanned), ?_⟩
  simp only [suspends, tokens, lead, branches, bare, List.cons_append, List.nil_append,
    suspendsAfter_cons, suspendsAfter_nil]
  decide

end ArrowChoice

end ScriptConsole.Suspension

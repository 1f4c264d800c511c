import Mathlib.Data.List.TakeWhile
import ScriptConsole.Proofs.Suspension.Bodies
import ScriptConsole.Proofs.Token.Scanning

/-!
# What a finished statement leaves behind

After a semicolon outside all brackets the search for suspension points goes on
as at the start of a source, with one exception.  The word `class` is taken for
the heading of a class wherever it stands, and a heading waits for its body past
the end of its statement.  A member or a key of that name therefore hides the
next block, and what is in it, from the search.
-/

namespace ScriptConsole.Suspension

open Token

/-- How many class headings outside all brackets wait for a body after a run, if
`waiting` of them did before it.  A curly bracket is the body of one that waits. -/
def headingsAfter (depth waiting : Nat) : List Token → Nat
  | [] => waiting
  | token :: rest =>
      let waiting :=
        if depth = 0 then
          if token.isWord "class" then waiting + 1
          else if token.opensWith .curly then waiting - 1
          else waiting
        else waiting
      headingsAfter (Declaration.depthAfter depth token) waiting rest

/-- The class headings that wait for a body after a source. -/
def openHeadings (tokens : List Token) : Nat :=
  headingsAfter 0 0 tokens

/-- Inside brackets no heading of those outside begins or gets its body. -/
theorem headingsAfter_append_of_inside {inner : List Token} (nested : WellNested inner)
    (depth waiting : Nat) (rest : List Token) :
    headingsAfter (depth + 1) waiting (inner ++ rest) = headingsAfter (depth + 1) waiting rest :=
  @WellNested.read_append_of_skips _ (fun depth tokens => headingsAfter depth waiting tokens)
    (fun _ _ _ _ => by rw [headingsAfter, if_neg (Nat.succ_ne_zero _)]) inner nested depth rest

/-- Outside all brackets the word `class` begins a heading, and no other plain token
matters. -/
theorem headingsAfter_plain {token : Token} (opens : token.opens? = none)
    (closes : token.closes? = none) (waiting : Nat) (rest : List Token) :
    headingsAfter 0 waiting (token :: rest) =
      headingsAfter 0 (if token.isWord "class" then waiting + 1 else waiting) rest := by
  rw [headingsAfter, if_pos rfl, opensWith, opens, depthAfter_of_plain opens closes]
  rfl

/-- A group in brackets outside all others gives a body to a heading that waits, if it
is one in curly brackets. -/
theorem headingsAfter_group {opening closing : Token} {inner : List Token} {bracket : Bracket}
    (opens : opening.opens? = some bracket) (closes : closing.closes? = some bracket)
    (nested : WellNested inner) (waiting : Nat) (rest : List Token) :
    headingsAfter 0 waiting (opening :: (inner ++ closing :: rest)) =
      headingsAfter 0 (if bracket = .curly then waiting - 1 else waiting) rest := by
  have noWord : opening.isWord "class" = false := by
    rw [isWord, (opens?_eq_some_iff.1 opens).1]
    rfl
  have curly : opening.opensWith .curly = decide (bracket = .curly) := by
    rw [opensWith, opens]
    cases bracket <;> rfl
  rw [headingsAfter, if_pos rfl, noWord, curly, depthAfter_of_opens opens]
  simp only [Bool.false_eq_true, if_false, decide_eq_true_eq]
  rw [headingsAfter_append_of_inside nested, headingsAfter, if_neg (Nat.succ_ne_zero _),
    depthAfter_of_closes closes]

namespace Context

/-- Outside all brackets, where `waiting` class headings wait for a body. -/
structure Outside (waiting : Nat) (context : Context) : Prop where
  frames : context.frames = []
  arrows : ∀ arrow ∈ context.arrows, arrow = 0
  classes : context.classes = List.replicate waiting 0

theorem outside_outermost : Outside 0 outermost :=
  ⟨rfl, by simp [outermost], rfl⟩

namespace Outside

variable {waiting : Nat} {context : Context}

theorem depth (outside : Outside waiting context) : context.depth = 0 := by
  rw [Context.depth, outside.frames, List.length_nil]

theorem settle (outside : Outside waiting context) (previous : Option Token) (token : Token) :
    Outside waiting (context.settle previous token) := by
  unfold Context.settle
  split
  · refine ⟨outside.frames, fun arrow mem => ?_, outside.classes⟩
    exact outside.arrows arrow ((List.dropWhile_sublist _).subset mem)
  · exact outside

theorem advance_plain (outside : Outside waiting context) {token : Token}
    (opens : token.opens? = none) (closes : token.closes? = none) (before : List Token)
    (next : Option Token) :
    Outside (if token.isWord "class" then waiting + 1 else waiting)
      (context.advance before token next) := by
  simp only [advance, opens, closes]
  by_cases word : token.isWord "class" = true
  · have noArrow : token.isPunctuator "=>" = false := by
      rw [isPunctuator, (isWord_iff.1 word).1]
      rfl
    rw [if_pos word, if_pos word, noArrow, Bool.false_and, if_neg Bool.false_ne_true]
    refine ⟨outside.frames, outside.arrows, ?_⟩
    rw [List.replicate_succ, ← outside.classes]
    exact congrArg (· :: context.classes) outside.depth
  · rw [if_neg word, if_neg word]
    split
    · refine ⟨outside.frames, ?_, outside.classes⟩
      rw [List.forall_mem_cons]
      exact ⟨outside.depth, outside.arrows⟩
    · exact ⟨outside.frames, outside.arrows, outside.classes⟩

/-- A group in curly brackets is the body of a heading that waits. -/
theorem leave_enter (outside : Outside waiting context) (before : List Token)
    (bracket : Bracket) :
    Outside (if bracket = .curly then waiting - 1 else waiting)
      ((context.enter before bracket).leave bracket) := by
  have entered : (context.enter before bracket).classes =
      List.replicate (if bracket = .curly then waiting - 1 else waiting) 0 := by
    simp only [enter, awaitsClassBody, outside.classes, outside.depth]
    cases bracket <;> cases waiting <;> simp [List.replicate_succ]
  refine ⟨outside.frames, fun arrow mem => ?_, ?_⟩
  · exact outside.arrows arrow ((List.dropWhile_sublist _).subset mem)
  · simp [leave, entered]

end Outside

/-- A well-nested run outside all brackets ends outside all brackets. -/
theorem outside_run {tokens : List Token} (nested : WellNested tokens) {waiting : Nat}
    {context : Context} (outside : Outside waiting context) (before : List Token)
    (next : Option Token) :
    Outside (headingsAfter 0 waiting tokens) (context.run before next tokens) := by
  induction nested generalizing waiting context before next with
  | nil => exact outside
  | @plain token rest opens closes tail ih =>
      have step := (outside.settle before.head? token).advance_plain opens closes before
        (rest.head?.or next)
      rw [headingsAfter_plain opens closes, run]
      exact ih step (token :: before) next
  | @group opening closing inner rest bracket opens closes within tail ihWithin ihTail =>
      rw [headingsAfter_group opens closes within, run, run_append, run, advance_of_opens opens,
        advance_of_closes closes,
        leave_settle_of_agreesOutside (agreesOutside_run within _ _ _)]
      exact ihTail ((outside.settle before.head? opening).leave_enter before bracket) _ _

/-- A semicolon outside all brackets ends every arrow body. -/
theorem run_semicolon {semicolon : Token} (mark : semicolon.isPunctuator ";" = true)
    {waiting : Nat} {context : Context} (outside : Outside waiting context)
    (before : List Token) (next : Option Token) :
    (context.run before next [semicolon]).arrows = [] ∧
      (context.run before next [semicolon]).afterParameters = false := by
  obtain ⟨opens, closes⟩ := plain_of_isPunctuator (by simp) mark
  obtain ⟨kind, text⟩ := isPunctuator_iff.1 mark
  have noArrow : semicolon.isPunctuator "=>" = false := by simp [isPunctuator, text]
  have noWord : semicolon.isWord "class" = false := by
    rw [isWord, kind]
    rfl
  have ends : endsArrow before.head? semicolon = true := by simp [endsArrow, mark]
  have ended : context.arrows.dropWhile (· == context.depth) = [] := by
    rw [List.dropWhile_eq_nil_iff, outside.depth]
    exact fun arrow mem => beq_iff_eq.2 (outside.arrows arrow mem)
  simp only [run, advance, opens, closes, noArrow, noWord, Bool.false_and, Bool.false_eq_true,
    if_false, settle, ends, if_true, ended, and_self]

/-- What surrounds the code after a statement that ends with a semicolon. -/
def afterSemicolon (waiting : Nat) : Context :=
  ⟨[], [], List.replicate waiting 0, false⟩

theorem run_append_semicolon {lead : List Token} {semicolon : Token}
    (nested : WellNested (lead ++ [semicolon])) (mark : semicolon.isPunctuator ";" = true)
    (next : Option Token) :
    outermost.run [] next (lead ++ [semicolon]) =
      afterSemicolon (openHeadings (lead ++ [semicolon])) := by
  obtain ⟨opens, closes⟩ := plain_of_isPunctuator (by simp) mark
  have whole := outside_run nested outside_outermost [] next
  have started := outside_run (nested.of_append_plain opens closes) outside_outermost []
    (some semicolon)
  have last := run_semicolon mark started (lead.reverse ++ []) next
  have parts := run_append [] outermost next lead [semicolon]
  rw [List.head?_cons, Option.some_or] at parts
  rw [← parts] at last
  cases h : outermost.run [] next (lead ++ [semicolon]) with
  | mk frames arrows classes afterParameters =>
      rw [h] at whole last
      obtain ⟨rfl, -, rfl⟩ := whole
      obtain ⟨rfl, rfl⟩ := last
      rfl

@[simp] theorem settle_outermost (previous : Option Token) (token : Token) :
    outermost.settle previous token = outermost := by
  unfold settle
  split <;> rfl

@[simp] theorem settle_afterSemicolon (waiting : Nat) (previous : Option Token)
    (token : Token) :
    (afterSemicolon waiting).settle previous token = afterSemicolon waiting := by
  unfold settle
  split <;> rfl

end Context

/-- After a punctuator that says nothing about the next token a run is searched as at the
start of a source. -/
theorem suspendsAfter_of_punctuator {first : Token} (kind : first.kind = .punctuator)
    (neutral : first.isPunctuatorIn [".", "?.", "=>", "*"] = false) (before tokens : List Token) :
    suspendsAfter (first :: before) .outermost tokens = suspends tokens := by
  have noAsterisk : first.isPunctuator "*" = false := isPunctuator_eq_false (by simp) neutral
  have noParameters : opensParameters (first :: before) = false := by
    simp [opensParameters, kind, noAsterisk]
  cases tokens with
  | nil => rw [suspends, suspendsAfter_nil, suspendsAfter_nil]
  | cons token rest =>
      have noMember : first.isPunctuatorIn [".", "?."] = false := by
        simp only [isPunctuatorIn, List.any_cons, List.any_nil, Bool.and_eq_false_iff,
          Bool.or_eq_false_iff] at neutral ⊢
        exact neutral.imp_right fun none => ⟨none.1, none.2.1, trivial⟩
      have operator : isOperatorBetween (some first) rest.head? =
          isOperatorBetween none rest.head? := by
        simp [isOperatorBetween, noMember]
      have advance : Context.outermost.advance (first :: before) token rest.head? =
          Context.outermost.advance [] token rest.head? := by
        have opensBody : (first :: before).head?.any (·.isPunctuator "=>") = false :=
          isPunctuator_eq_false (by simp) neutral
        simp only [Context.advance, Context.enter, opensBody, noParameters]
        rfl
      have parameters : opensParameters (token :: first :: before) =
          opensParameters [token] := by
        have noWord : first.isWord "function" = false := by simp [isWord, kind]
        simp [opensParameters, noWord]
      rw [suspends, suspendsAfter_cons, suspendsAfter_cons, Context.settle_outermost,
        Context.settle_outermost, advance, List.head?_cons, List.head?_nil, operator,
        suspendsAfter_congr (by simp) parameters]

section Semicolon

variable {lead : List Token} {semicolon : Token}

/-- After a semicolon a run is searched as at the start of a source. -/
theorem suspendsAfter_of_semicolon (mark : semicolon.isPunctuator ";" = true)
    (before tokens : List Token) :
    suspendsAfter (semicolon :: before) .outermost tokens = suspends tokens := by
  obtain ⟨kind, text⟩ := isPunctuator_iff.1 mark
  exact suspendsAfter_of_punctuator kind (by simp [isPunctuatorIn, text]) before tokens

/-- What follows a statement that ends with a semicolon is searched with the headings
waiting that the statement leaves. -/
theorem suspends_append_of_semicolon (nested : WellNested (lead ++ [semicolon]))
    (mark : semicolon.isPunctuator ";" = true) (rest : List Token) :
    suspends (lead ++ [semicolon] ++ rest) =
      (suspends (lead ++ [semicolon]) ||
        suspendsAfter (semicolon :: lead.reverse)
          (.afterSemicolon (openHeadings (lead ++ [semicolon]))) rest) := by
  have noPoint : ∀ (before : List Token) (context : Context) (next : Option Token),
      found before context next [semicolon] = false := by
    intro before context next
    have kind := (isPunctuator_iff.1 mark).1
    simp [found, pointAt, isWord, kind]
  have first : found [] .outermost rest.head? (lead ++ [semicolon]) =
      suspends (lead ++ [semicolon]) := by
    rw [suspends_eq_found, found_append, found_append, noPoint, noPoint]
    rfl
  rw [suspends, suspendsAfter_append, first, Context.run_append_semicolon nested mark]
  simp

/-- The block `{ await y }`. -/
private def awaitingBlock : List Token :=
  [⟨.punctuator, [' '], ['\x7b']⟩, ⟨.identifier, [' '], "await".toList⟩,
    ⟨.identifier, [' '], ['y']⟩, ⟨.punctuator, [' '], ['\x7d']⟩]

private theorem suspends_awaitingBlock : suspends awaitingBlock = true := by
  simp only [suspends, awaitingBlock, suspendsAfter_cons, suspendsAfter_nil]
  decide

private theorem suspendsAfter_awaitingBlock (before : List Token) (waiting : Nat) :
    suspendsAfter before (.afterSemicolon (waiting + 1)) awaitingBlock = false := by
  have nested : WellNested [(⟨.identifier, [' '], "await".toList⟩ : Token),
      ⟨.identifier, [' '], ['y']⟩] :=
    .plain (by decide) (by decide) (.plain (by decide) (by decide) .nil)
  have heading : (Context.afterSemicolon (waiting + 1)).awaitsClassBody = true := by
    simp [Context.awaitsClassBody, Context.afterSemicolon, Context.depth, List.replicate_succ]
  have opens : opens? ⟨.punctuator, [' '], ['\x7b']⟩ = some .curly := by decide
  have closes : closes? ⟨.punctuator, [' '], ['\x7d']⟩ = some .curly := by decide
  have body : ((Context.afterSemicolon (waiting + 1)).settle before.head?
      ⟨.punctuator, [' '], ['\x7b']⟩).opensBody before = true := by
    rw [Context.settle_afterSemicolon]
    exact Context.opensBody_of_awaitsClassBody before heading
  exact (suspendsAfter_body opens closes nested body []).trans (suspendsAfter_nil _ _)

/-- A finished statement is neutral to the search in all that follows if and only if it
suspends itself, which decides all, or leaves no class heading without a body. -/
theorem forall_suspends_append_iff (nested : WellNested (lead ++ [semicolon]))
    (mark : semicolon.isPunctuator ";" = true) :
    (∀ rest, suspends (lead ++ [semicolon] ++ rest) =
        (suspends (lead ++ [semicolon]) || suspends rest)) ↔
      suspends (lead ++ [semicolon]) = true ∨ openHeadings (lead ++ [semicolon]) = 0 := by
  constructor
  · intro neutral
    have block := neutral awaitingBlock
    rw [suspends_append_of_semicolon nested mark, suspends_awaitingBlock, Bool.or_true,
      Bool.or_eq_true_iff] at block
    refine block.imp_right fun read => ?_
    cases h : openHeadings (lead ++ [semicolon]) with
    | zero => rfl
    | succ waiting =>
        rw [h, suspendsAfter_awaitingBlock] at read
        contradiction
  · rintro (suspending | finished) rest
    · rw [suspends_append_of_semicolon nested mark, suspending, Bool.true_or, Bool.true_or]
    · rw [suspends_append_of_semicolon nested mark, finished]
      exact congrArg _ (suspendsAfter_of_semicolon mark _ rest)

end Semicolon

/-- The heading of `class A {};` has its body, so the statement is neutral. -/
theorem forall_suspends_append_iff_class :
    (WellNested ([⟨.identifier, [], "class".toList⟩, ⟨.identifier, [' '], ['A']⟩,
          ⟨.punctuator, [' '], ['\x7b']⟩, ⟨.punctuator, [], ['\x7d']⟩] ++
        [⟨.punctuator, [], [';']⟩]) ∧
      isPunctuator ⟨.punctuator, [], [';']⟩ ";" = true) ∧
      ((∀ rest, suspends ([⟨.identifier, [], "class".toList⟩, ⟨.identifier, [' '], ['A']⟩,
              ⟨.punctuator, [' '], ['\x7b']⟩, ⟨.punctuator, [], ['\x7d']⟩] ++
            [⟨.punctuator, [], [';']⟩] ++ rest) =
          (suspends ([⟨.identifier, [], "class".toList⟩, ⟨.identifier, [' '], ['A']⟩,
              ⟨.punctuator, [' '], ['\x7b']⟩, ⟨.punctuator, [], ['\x7d']⟩] ++
            [⟨.punctuator, [], [';']⟩]) || suspends rest)) ↔
        suspends ([⟨.identifier, [], "class".toList⟩, ⟨.identifier, [' '], ['A']⟩,
              ⟨.punctuator, [' '], ['\x7b']⟩, ⟨.punctuator, [], ['\x7d']⟩] ++
            [⟨.punctuator, [], [';']⟩]) = true ∨
          openHeadings ([⟨.identifier, [], "class".toList⟩, ⟨.identifier, [' '], ['A']⟩,
              ⟨.punctuator, [' '], ['\x7b']⟩, ⟨.punctuator, [], ['\x7d']⟩] ++
            [⟨.punctuator, [], [';']⟩]) = 0) := by
  have opens : opens? ⟨.punctuator, [' '], ['\x7b']⟩ = some .curly := by decide
  have closes : closes? ⟨.punctuator, [], ['\x7d']⟩ = some .curly := by decide
  have body : WellNested ([(⟨.punctuator, [' '], ['\x7b']⟩ : Token)] ++
      ([] ++ [⟨.punctuator, [], ['\x7d']⟩, ⟨.punctuator, [], [';']⟩])) :=
    .group opens closes .nil (.plain (by decide) (by decide) .nil)
  have nested : WellNested ([⟨.identifier, [], "class".toList⟩, ⟨.identifier, [' '], ['A']⟩,
      ⟨.punctuator, [' '], ['\x7b']⟩, ⟨.punctuator, [], ['\x7d']⟩] ++
        [⟨.punctuator, [], [';']⟩]) :=
    .plain (by decide) (by decide) (.plain (by decide) (by decide) body)
  have mark : isPunctuator ⟨.punctuator, [], [';']⟩ ";" = true := by decide
  exact ⟨⟨nested, mark⟩, forall_suspends_append_iff nested mark⟩

/-- The member `class` is read as a heading: the block after its statement is searched
as a class body. -/
theorem suspends_append_member_class :
    ∃ (lead rest : List Token) (semicolon : Token),
      tokenize "x.class; { await y }".toList = lead ++ [semicolon] ++ rest ∧
        WellNested (lead ++ [semicolon]) ∧ semicolon.isPunctuator ";" = true ∧
        suspends (lead ++ [semicolon] ++ rest) = false ∧
        (suspends (lead ++ [semicolon]) || suspends rest) = true := by
  have scanned : Scan.within 9 none "x.class; { await y }".toList =
      some ⟨[⟨.identifier, [], ['x']⟩, ⟨.punctuator, [], ['.']⟩,
        ⟨.identifier, [], "class".toList⟩] ++ [⟨.punctuator, [], [';']⟩] ++ awaitingBlock,
        []⟩ := by decide
  have nested : WellNested ([⟨.identifier, [], ['x']⟩, ⟨.punctuator, [], ['.']⟩,
      ⟨.identifier, [], "class".toList⟩] ++ [⟨.punctuator, [], [';']⟩]) :=
    wellNested_of_plain (by decide)
  have mark : isPunctuator ⟨.punctuator, [], [';']⟩ ";" = true := by decide
  have heading : openHeadings ([⟨.identifier, [], ['x']⟩, ⟨.punctuator, [], ['.']⟩,
      ⟨.identifier, [], "class".toList⟩] ++ [⟨.punctuator, [], [';']⟩]) = 1 := by decide
  have finished : suspends ([⟨.identifier, [], ['x']⟩, ⟨.punctuator, [], ['.']⟩,
      ⟨.identifier, [], "class".toList⟩] ++ [⟨.punctuator, [], [';']⟩]) = false := by
    simp only [suspends, List.cons_append, List.nil_append, suspendsAfter_cons,
      suspendsAfter_nil]
    decide
  refine ⟨_, awaitingBlock, _, congrArg Scan.tokens (Scan.ofSource_of_within scanned),
    nested, mark, ?_, ?_⟩
  · rw [suspends_append_of_semicolon nested mark, finished, heading,
      suspendsAfter_awaitingBlock]
    rfl
  · rw [finished, suspends_awaitingBlock]
    rfl

end ScriptConsole.Suspension

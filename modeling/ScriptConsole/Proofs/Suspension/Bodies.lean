import Mathlib.Data.List.TakeWhile
import ScriptConsole.Proofs.Nesting
import ScriptConsole.Suspension

/-!
# Function bodies hide what is in them

The search for suspension points is a run over contexts, one step a token.  A
well-nested run leaves all that surrounds it as it was, and one inside a
function body holds no suspension point.  So whether a source suspends does not
depend on what its function and class bodies hold.
-/

namespace ScriptConsole.Suspension

/-- Whether a suspension point is at `token`, in its code or in a substitution. -/
def pointAt (previous : Option Token) (context : Context) (token : Token)
    (next : Option Token) : Bool :=
  !(context.settle previous token).nested &&
    ((token.isWord "await" && isOperatorBetween previous next) ||
      (token.kind == .template &&
        (Template.substitutions token.text).any (suspends <| tokenize ·)))

/-- Only the word `await` and templates can be suspension points. -/
theorem pointAt_eq_false {token : Token} (noWord : token.isWord "await" = false)
    (noTemplate : token.kind ≠ .template) (previous next : Option Token) (context : Context) :
    pointAt previous context token next = false := by
  simp [pointAt, noWord, noTemplate]

theorem pointAt_punctuator {token : Token} (kind : token.kind = .punctuator)
    (previous next : Option Token) (context : Context) :
    pointAt previous context token next = false :=
  pointAt_eq_false (by simp [Token.isWord, kind]) (by simp [kind]) previous next context

theorem suspendsAfter_cons_eq_pointAt (before : List Token) (context : Context) (token : Token)
    (rest : List Token) :
    suspendsAfter before context (token :: rest) =
      (pointAt before.head? context token rest.head? ||
        suspendsAfter (token :: before)
          ((context.settle before.head? token).advance before token rest.head?) rest) := by
  rw [suspendsAfter_cons, pointAt]

/-- Whether a run of tokens that `next` follows holds a suspension point. -/
def found (before : List Token) (context : Context) (next : Option Token) :
    List Token → Bool
  | [] => false
  | token :: rest =>
      pointAt before.head? context token (rest.head?.or next) ||
        found (token :: before)
          ((context.settle before.head? token).advance before token (rest.head?.or next))
          next rest

namespace Context

/-- The surroundings after a run of tokens that `next` follows. -/
def run (before : List Token) (context : Context) (next : Option Token) :
    List Token → Context
  | [] => context
  | token :: rest =>
      run (token :: before)
        ((context.settle before.head? token).advance before token (rest.head?.or next))
        next rest

theorem run_append (before : List Token) (context : Context) (next : Option Token)
    (left right : List Token) :
    run before context next (left ++ right) =
      run (left.reverse ++ before) (run before context (right.head?.or next) left) next
        right := by
  induction left generalizing before context with
  | nil => rfl
  | cons token left ih => simp [run, ih, Option.or_assoc]

end Context

theorem found_append (before : List Token) (context : Context) (next : Option Token)
    (left right : List Token) :
    found before context next (left ++ right) =
      (found before context (right.head?.or next) left ||
        found (left.reverse ++ before) (context.run before (right.head?.or next) left)
          next right) := by
  induction left generalizing before context with
  | nil => rfl
  | cons token left ih =>
      simp [found, Context.run, ih, Option.or_assoc, Bool.or_assoc]

theorem suspendsAfter_append (before : List Token) (context : Context)
    (left right : List Token) :
    suspendsAfter before context (left ++ right) =
      (found before context right.head? left ||
        suspendsAfter (left.reverse ++ before) (context.run before right.head? left)
          right) := by
  induction left generalizing before context with
  | nil => simp [found, Context.run]
  | cons token left ih =>
      rw [List.cons_append, suspendsAfter_cons, ih]
      simp [found, pointAt, Context.run, Bool.or_assoc]

theorem suspends_eq_found (tokens : List Token) :
    suspends tokens = found [] .outermost none tokens := by
  have whole := suspendsAfter_append [] .outermost tokens []
  rw [List.append_nil, suspendsAfter_nil, Bool.or_false] at whole
  exact whole

/-- Of the tokens before a run only those matter that decide about its first. -/
theorem suspendsAfter_congr {before before' : List Token}
    (previous : before.head? = before'.head?)
    (parameters : opensParameters before = opensParameters before')
    (context : Context) (tokens : List Token) :
    suspendsAfter before context tokens = suspendsAfter before' context tokens := by
  induction tokens generalizing before before' context with
  | nil => simp
  | cons token rest ih =>
      have advance : ∀ inner : Context, inner.advance before token rest.head? =
          inner.advance before' token rest.head? := by
        intro inner
        simp only [Context.advance, Context.enter, previous, parameters]
      have further : opensParameters (token :: before) =
          opensParameters (token :: before') := by
        simp only [opensParameters, previous]
      rw [suspendsAfter_cons, suspendsAfter_cons, advance, previous,
        ih (by simp) further]

theorem dropWhile_dropWhile_of_imp {α : Type} {p q : α → Bool}
    (h : ∀ a, q a = true → p a = true) (items : List α) :
    (items.dropWhile q).dropWhile p = items.dropWhile p := by
  induction items with
  | nil => rfl
  | cons item items ih =>
      by_cases hq : q item = true
      · rw [List.dropWhile_cons_of_pos hq, List.dropWhile_cons_of_pos (h item hq), ih]
      · rw [List.dropWhile_cons_of_neg hq]

namespace Context

/-- Two contexts that differ only in concise arrow bodies and class headings
begun at their own depth. -/
structure AgreesOutside (outer inner : Context) : Prop where
  frames : inner.frames = outer.frames
  arrows : inner.arrows.dropWhile (outer.depth ≤ ·) =
    outer.arrows.dropWhile (outer.depth ≤ ·)
  classes : inner.classes.filter (· < outer.depth) =
    outer.classes.filter (· < outer.depth)

namespace AgreesOutside

theorem refl (context : Context) : AgreesOutside context context :=
  ⟨rfl, rfl, rfl⟩

theorem depth {outer inner : Context} (agrees : AgreesOutside outer inner) :
    inner.depth = outer.depth := by
  rw [Context.depth, agrees.frames, Context.depth]

theorem trans {first second third : Context} (left : AgreesOutside first second)
    (right : AgreesOutside second third) : AgreesOutside first third where
  frames := right.frames.trans left.frames
  arrows := by
    have := right.arrows
    rw [left.depth] at this
    exact this.trans left.arrows
  classes := by
    have := right.classes
    rw [left.depth] at this
    exact this.trans left.classes

theorem leave_eq {outer inner : Context} (agrees : AgreesOutside outer inner)
    (inside : outer.frames ≠ []) (bracket : Bracket) :
    inner.leave bracket = outer.leave bracket := by
  obtain ⟨frame, frames, hframes⟩ := List.exists_cons_of_ne_nil inside
  have hdepth : outer.depth = frames.length + 1 := by
    rw [Context.depth, hframes, List.length_cons]
  have harrows := agrees.arrows
  have hclasses := agrees.classes
  simp only [hdepth, Nat.succ_le_iff, Nat.lt_succ_iff] at harrows hclasses
  simp only [leave, agrees.frames, hframes, List.tail_cons, harrows, hclasses]

theorem settle (previous : Option Token) (token : Token) (context : Context) :
    AgreesOutside context (context.settle previous token) := by
  unfold Context.settle
  split
  · refine ⟨rfl, ?_, rfl⟩
    apply dropWhile_dropWhile_of_imp
    intro arrow same
    simp only [beq_iff_eq] at same
    simp [same]
  · exact refl context

theorem leave_enter (before : List Token) (opening closing : Bracket)
    (context : Context) :
    AgreesOutside context ((context.enter before opening).leave closing) where
  frames := rfl
  arrows := by
    apply dropWhile_dropWhile_of_imp
    intro arrow inside
    simp only [decide_eq_true_eq] at inside ⊢
    exact Nat.le_of_lt inside
  classes := by
    have weaken : ∀ classes : List Nat,
        (classes.filter (· ≤ context.depth)).filter (· < context.depth) =
          classes.filter (· < context.depth) := by
      intro classes
      rw [List.filter_filter]
      apply List.filter_congr
      intro depth _
      simp only [Bool.and_eq_left_iff_imp, decide_eq_true_eq]
      omega
    refine (weaken _).trans ?_
    unfold enter awaitsClassBody
    split
    · rename_i heading
      simp only [Bool.and_eq_true, beq_iff_eq] at heading
      obtain ⟨classes, hclasses⟩ := List.head?_eq_some_iff.1 heading.2
      simp [hclasses]
    · rfl

/-- A token that is no bracket begins arrow bodies and classes at this depth only. -/
theorem advance_plain {token : Token} (opens : token.opens? = none)
    (closes : token.closes? = none) (before : List Token) (next : Option Token)
    (context : Context) :
    AgreesOutside context (context.advance before token next) := by
  simp only [advance, opens, closes]
  split
  · exact ⟨rfl, by simp [Context.depth], rfl⟩
  · split
    · exact ⟨rfl, rfl, by simp [Context.depth]⟩
    · exact ⟨rfl, rfl, rfl⟩

end AgreesOutside

theorem settle_of_arrows_eq_nil {context : Context} (none : context.arrows = [])
    (previous : Option Token) (token : Token) : context.settle previous token = context := by
  obtain ⟨frames, arrows, classes, afterParameters⟩ := context
  cases none
  unfold settle
  split <;> rfl

theorem advance_of_opens {token : Token} {bracket : Bracket}
    (opens : token.opens? = some bracket) (before : List Token) (next : Option Token)
    (context : Context) :
    context.advance before token next = context.enter before bracket := by
  simp only [advance, opens]

theorem advance_of_closes {token : Token} {bracket : Bracket}
    (closes : token.closes? = some bracket) (before : List Token) (next : Option Token)
    (context : Context) :
    context.advance before token next = context.leave bracket := by
  simp only [advance, closes, Token.opens?_eq_none_of_closes? closes]

/-- A closing bracket undoes what has begun since its bracket was entered. -/
theorem leave_settle_of_agreesOutside {outer inner : Context} {before : List Token}
    {opening : Bracket} (agrees : AgreesOutside (outer.enter before opening) inner)
    (previous : Option Token) (token : Token) (closing : Bracket) :
    (inner.settle previous token).leave closing =
      (outer.enter before opening).leave closing :=
  (agrees.trans (.settle previous token inner)).leave_eq (List.cons_ne_nil _ _) closing

theorem agreesOutside_run {tokens : List Token} (nested : Token.WellNested tokens)
    (before : List Token) (context : Context) (next : Option Token) :
    AgreesOutside context (context.run before next tokens) := by
  induction nested generalizing before context next with
  | nil => exact .refl context
  | @plain token rest opens closes tail ih =>
      have step := (AgreesOutside.settle before.head? token context).trans
        (.advance_plain opens closes before (rest.head?.or next) _)
      exact step.trans (ih _ _ _)
  | @group opening closing inner rest bracket opens closes within tail ihWithin ihTail =>
      rw [run, run_append, run, advance_of_opens opens, advance_of_closes closes,
        leave_settle_of_agreesOutside (ihWithin _ _ _)]
      have group := (AgreesOutside.settle before.head? opening context).trans
        (.leave_enter before bracket bracket _)
      exact group.trans (ihTail _ _ _)

end Context

namespace Context

/-- Inside a function body, or inside a concise arrow body begun further out. -/
def enclosed (context : Context) : Bool :=
  context.frames.any (·.body) || context.arrows.any (· < context.depth)

theorem enclosed_iff {context : Context} :
    context.enclosed = true ↔ context.frames.any (·.body) = true ∨
      context.arrows.dropWhile (context.depth ≤ ·) ≠ [] := by
  simp [enclosed, List.dropWhile_eq_nil_iff]

theorem AgreesOutside.enclosed {outer inner : Context} (agrees : AgreesOutside outer inner)
    (enclosed : outer.enclosed = true) : inner.enclosed = true := by
  rw [enclosed_iff, agrees.depth, agrees.frames, agrees.arrows]
  exact enclosed_iff.1 enclosed

theorem nested_of_enclosed {context : Context} (enclosed : context.enclosed = true) :
    context.nested = true := by
  rw [Context.enclosed, Bool.or_eq_true] at enclosed
  rw [nested, Bool.or_eq_true]
  refine enclosed.symm.imp_left fun outer => ?_
  cases arrows : context.arrows with
  | nil => simp [arrows] at outer
  | cons arrow arrows => rfl

theorem enclosed_enter {context : Context} (enclosed : context.enclosed = true)
    (before : List Token) (bracket : Bracket) : (context.enter before bracket).enclosed = true := by
  rw [Context.enclosed, Bool.or_eq_true] at enclosed ⊢
  refine enclosed.imp (fun body => by simp [enter, body]) fun outer => ?_
  rw [List.any_eq_true] at outer ⊢
  obtain ⟨arrow, mem, further⟩ := outer
  refine ⟨arrow, mem, decide_eq_true ?_⟩
  exact Nat.lt_succ_of_lt (of_decide_eq_true further)

end Context

/-- Nothing in a well-nested run inside a function or arrow body is a suspension point. -/
theorem found_eq_false_of_enclosed {tokens : List Token} (nested : Token.WellNested tokens)
    (before : List Token) (next : Option Token) {context : Context}
    (enclosed : context.enclosed = true) :
    found before context next tokens = false := by
  have hidden : ∀ (previous : Option Token) (context : Context) (token : Token)
      (next : Option Token), context.enclosed = true →
      pointAt previous context token next = false := by
    intro previous context token next enclosed
    have settled := (Context.AgreesOutside.settle previous token context).enclosed enclosed
    simp [pointAt, Context.nested_of_enclosed settled]
  induction nested generalizing before context next with
  | nil => rfl
  | @plain token rest opens closes tail ih =>
      have step := (Context.AgreesOutside.settle before.head? token context).trans
        (.advance_plain opens closes before (rest.head?.or next) _)
      rw [found, hidden _ _ _ _ enclosed, Bool.false_or]
      exact ih _ _ (step.enclosed enclosed)
  | @group opening closing inner rest bracket opens closes within tail ihWithin ihTail =>
      have settled := (Context.AgreesOutside.settle before.head? opening context)
      have entered := Context.enclosed_enter (settled.enclosed enclosed) before bracket
      rw [found, hidden _ _ _ _ enclosed, Bool.false_or, Context.advance_of_opens opens,
        found_append, ihWithin _ _ entered, Bool.false_or, found, hidden, Bool.false_or,
        Context.advance_of_closes closes,
        Context.leave_settle_of_agreesOutside (Context.agreesOutside_run within _ _ _)]
      · exact ihTail _ _ ((settled.trans (.leave_enter before bracket bracket _)).enclosed enclosed)
      · exact (Context.agreesOutside_run within _ _ _).enclosed entered

theorem found_eq_false_of_body {tokens : List Token} (nested : Token.WellNested tokens)
    (before : List Token) (next : Option Token) {context : Context}
    (body : context.frames.any (·.body) = true) :
    found before context next tokens = false :=
  found_eq_false_of_enclosed nested before next (by simp [Context.enclosed, body])

/-- What may stand before the curly bracket of a function or class body. -/
inductive Heading : List Token → Prop where
  | arrow {arrow : Token} (mark : arrow.isPunctuator "=>" = true) : Heading [arrow]
  /-- A function or method with its parameters. -/
  | named {name opening closing : Token} {parameters : List Token}
      (identifier : name.isIdentifier = true)
      (callable : name.isWordIn nonCallableWords = false)
      (opens : opening.opens? = some .round) (closes : closing.closes? = some .round)
      (nested : Token.WellNested parameters) :
      Heading (name :: opening :: (parameters ++ [closing]))
  /-- A generator function without a name. -/
  | generator {word star opening closing : Token} {parameters : List Token}
      (function : word.isWord "function" = true) (mark : star.isPunctuator "*" = true)
      (opens : opening.opens? = some .round) (closes : closing.closes? = some .round)
      (nested : Token.WellNested parameters) :
      Heading (word :: star :: opening :: (parameters ++ [closing]))
  | namedClass {word name : Token} (isClass : word.isWord "class" = true)
      (identifier : name.isIdentifier = true) : Heading [word, name]
  | derivedClass {word name extending base : Token} (isClass : word.isWord "class" = true)
      (identifier : name.isIdentifier = true) (extendsWord : extending.isWord "extends" = true)
      (baseIdentifier : base.isIdentifier = true) : Heading [word, name, extending, base]

namespace Context

/-- Whether a curly bracket after the tokens `before` opens a body. -/
def opensBody (before : List Token) (context : Context) : Bool :=
  before.head?.any (·.isPunctuator "=>") ||
    (context.afterParameters && before.head?.any (·.closesWith .round)) ||
    context.awaitsClassBody

theorem any_body_enter {before : List Token} {context : Context}
    (opens : context.opensBody before = true) :
    (context.enter before .curly).frames.any (·.body) = true := by
  have first : (context.enter before .curly).frames.head?.any (·.body) = true := opens
  cases h : (context.enter before .curly).frames with
  | nil => simp [enter] at h
  | cons frame frames =>
      rw [h] at first
      exact Bool.or_eq_true_iff.2 (.inl first)

@[simp] theorem afterParameters_settle (previous : Option Token) (token : Token)
    (context : Context) :
    (context.settle previous token).afterParameters = context.afterParameters := by
  unfold settle
  split <;> rfl

@[simp] theorem awaitsClassBody_settle (previous : Option Token) (token : Token)
    (context : Context) :
    (context.settle previous token).awaitsClassBody = context.awaitsClassBody := by
  unfold settle
  split <;> rfl

theorem afterParameters_run {opening closing : Token} {parameters : List Token}
    (opens : opening.opens? = some .round) (closes : closing.closes? = some .round)
    (nested : Token.WellNested parameters) {before : List Token}
    (callable : opensParameters before = true) (context : Context) (next : Option Token) :
    (context.run before next (opening :: (parameters ++ [closing]))).afterParameters =
      true := by
  rw [run, run_append, run, run, advance_of_opens opens, advance_of_closes closes,
    leave_settle_of_agreesOutside (agreesOutside_run nested _ _ _)]
  simp [leave, enter, callable]

/-- The word `class` begins the wait for a body, and identifiers do not end it. -/
theorem awaitsClassBody_advance {token : Token} (identifier : token.isIdentifier = true)
    (before : List Token) (next : Option Token) {context : Context}
    (waits : token.isWord "class" = true ∨ context.awaitsClassBody = true) :
    (context.advance before token next).awaitsClassBody = true := by
  have kind : token.kind = .identifier := by simpa [Token.isIdentifier] using identifier
  have noArrow : token.isPunctuator "=>" = false := by simp [Token.isPunctuator, kind]
  have opens : token.opens? = none := by simp [Token.opens?, kind]
  have closes : token.closes? = none := by simp [Token.closes?, kind]
  simp only [advance, opens, closes, noArrow, Bool.false_and, Bool.false_eq_true, if_false]
  split
  · simp [awaitsClassBody, depth]
  · rename_i other
    exact waits.resolve_left other

theorem awaitsClassBody_run {tokens : List Token}
    (identifiers : ∀ token ∈ tokens, token.isIdentifier = true) (before : List Token)
    (next : Option Token) {context : Context} (waits : context.awaitsClassBody = true) :
    (context.run before next tokens).awaitsClassBody = true := by
  induction tokens generalizing before context with
  | nil => exact waits
  | cons token tokens ih =>
      rw [List.forall_mem_cons] at identifiers
      apply ih identifiers.2
      apply awaitsClassBody_advance identifiers.1
      rw [awaitsClassBody_settle]
      exact .inr waits

theorem opensBody_of_afterParameters {closing : Token}
    (closes : closing.closes? = some .round) (before : List Token) {context : Context}
    (after : context.afterParameters = true) :
    context.opensBody (closing :: before) = true := by
  simp [opensBody, after, Token.closesWith, closes]

theorem opensBody_of_awaitsClassBody (before : List Token) {context : Context}
    (waits : context.awaitsClassBody = true) : context.opensBody before = true := by
  simp [opensBody, waits]

end Context

theorem isIdentifier_of_isWord {token : Token} {word : String}
    (h : token.isWord word = true) : token.isIdentifier = true := by
  simpa [Token.isIdentifier] using (Token.isWord_iff.1 h).1

theorem Heading.opensBody {heading : List Token} (headed : Heading heading)
    (before : List Token) (context : Context) (opening : Token) :
    ((context.run before (some opening) heading).settle
      (heading.reverse ++ before).head? opening).opensBody (heading.reverse ++ before) =
        true := by
  cases headed with
  | arrow mark => simp [Context.opensBody, mark]
  | @named name opening closing parameters identifier callable opens closes nested =>
      have kind : name.kind = .identifier := by simpa [Token.isIdentifier] using identifier
      have parametric : opensParameters (name :: before) = true := by
        simp [opensParameters, kind, callable]
      have latest : (name :: opening :: (parameters ++ [closing])).reverse ++ before =
          closing :: (parameters.reverse ++ opening :: name :: before) := by
        simp
      rw [latest]
      apply Context.opensBody_of_afterParameters closes
      rw [Context.afterParameters_settle, Context.run]
      exact Context.afterParameters_run opens closes nested parametric _ _
  | @generator word star opening closing parameters function mark opens closes nested =>
      have kind := (Token.isPunctuator_iff.1 mark).1
      have parametric : opensParameters (star :: word :: before) = true := by
        simp [opensParameters, kind, mark, function]
      have latest : (word :: star :: opening :: (parameters ++ [closing])).reverse ++ before =
          closing :: (parameters.reverse ++ opening :: star :: word :: before) := by
        simp
      rw [latest]
      apply Context.opensBody_of_afterParameters closes
      rw [Context.afterParameters_settle, Context.run, Context.run]
      exact Context.afterParameters_run opens closes nested parametric _ _
  | namedClass isClass identifier =>
      apply Context.opensBody_of_awaitsClassBody
      rw [Context.awaitsClassBody_settle, Context.run]
      apply Context.awaitsClassBody_run (by simpa using identifier)
      exact Context.awaitsClassBody_advance (isIdentifier_of_isWord isClass) _ _
        (.inl isClass)
  | derivedClass isClass identifier extendsWord baseIdentifier =>
      apply Context.opensBody_of_awaitsClassBody
      rw [Context.awaitsClassBody_settle, Context.run]
      apply Context.awaitsClassBody_run
        (by simp [identifier, baseIdentifier, isIdentifier_of_isWord extendsWord])
      exact Context.awaitsClassBody_advance (isIdentifier_of_isWord isClass) _ _
        (.inl isClass)

/-- A body of any well-nested tokens is searched as if it were empty, and leaves
no trace in what is searched after it. -/
theorem suspendsAfter_body {opening closing : Token} {inner : List Token}
    (opens : opening.opens? = some .curly) (closes : closing.closes? = some .curly)
    (nested : Token.WellNested inner) {before : List Token} {context : Context}
    (body : (context.settle before.head? opening).opensBody before = true)
    (right : List Token) :
    suspendsAfter before context (opening :: (inner ++ closing :: right)) =
      suspendsAfter [closing]
        (((context.settle before.head? opening).enter before .curly).leave .curly)
        right := by
  have bracket : ∀ {token : Token} {bracket : Bracket},
      token.opens? = some bracket ∨ token.closes? = some bracket →
        token.isWord "await" = false ∧ (token.kind == .template) = false := by
    intro token bracket h
    have kind : token.kind = .punctuator :=
      h.elim (fun h => (Token.opens?_eq_some_iff.1 h).1)
        (fun h => (Token.closes?_eq_some_iff.1 h).1)
    simp [Token.isWord, kind]
  have hopening := bracket (.inl opens)
  have hclosing := bracket (.inr closes)
  have hsecond : opensParameters (closing :: (inner.reverse ++ opening :: before)) =
      opensParameters [closing] := by
    obtain ⟨kind, text⟩ := Token.closes?_eq_some_iff.1 closes
    simp [opensParameters, kind, text, Token.isPunctuator, Bracket.closing]
  rw [suspendsAfter_cons, hopening.1, hopening.2, Context.advance_of_opens opens,
    suspendsAfter_append, found_eq_false_of_body nested _ _ (Context.any_body_enter body),
    suspendsAfter_cons, hclosing.1, hclosing.2, Context.advance_of_closes closes,
    Context.leave_settle_of_agreesOutside (Context.agreesOutside_run nested _ _ _)]
  simp only [Bool.false_and, Bool.or_false, Bool.and_false, Bool.false_or]
  exact suspendsAfter_congr (by simp) hsecond _ _

/-- Whether a source suspends does not depend on what its function and class
bodies hold. -/
theorem suspends_congr_body {heading inner inner' : List Token} {opening closing : Token}
    (headed : Heading heading) (opens : opening.opens? = some .curly)
    (closes : closing.closes? = some .curly) (nested : Token.WellNested inner)
    (nested' : Token.WellNested inner') (left right : List Token) :
    suspends (left ++ heading ++ opening :: (inner ++ closing :: right)) =
      suspends (left ++ heading ++ opening :: (inner' ++ closing :: right)) := by
  unfold suspends
  rw [suspendsAfter_append, suspendsAfter_append]
  simp only [List.head?_cons, List.append_nil, List.reverse_append]
  rw [Context.run_append, List.append_nil]
  have body := headed.opensBody left.reverse
    (Context.run [] .outermost (heading.head?.or (some opening)) left) opening
  rw [suspendsAfter_body opens closes nested body right,
    suspendsAfter_body opens closes nested' body right]

/-- The method `m() { await y }` of an object suspends no more than `m() {}`. -/
theorem suspends_congr_body_method :
    Heading [⟨.identifier, [], ['m']⟩, ⟨.punctuator, [], ['(']⟩, ⟨.punctuator, [], [')']⟩] ∧
      Token.WellNested [⟨.identifier, [], "await".toList⟩, ⟨.identifier, [' '], ['y']⟩] ∧
      suspends ([⟨.punctuator, [], ['(']⟩, ⟨.punctuator, [], ['\x7b']⟩] ++
          [⟨.identifier, [], ['m']⟩, ⟨.punctuator, [], ['(']⟩, ⟨.punctuator, [], [')']⟩] ++
          ⟨.punctuator, [], ['\x7b']⟩ ::
            ([⟨.identifier, [], "await".toList⟩, ⟨.identifier, [' '], ['y']⟩] ++
              ⟨.punctuator, [], ['\x7d']⟩ ::
                [⟨.punctuator, [], ['\x7d']⟩, ⟨.punctuator, [], [')']⟩])) =
        suspends ([⟨.punctuator, [], ['(']⟩, ⟨.punctuator, [], ['\x7b']⟩] ++
          [⟨.identifier, [], ['m']⟩, ⟨.punctuator, [], ['(']⟩, ⟨.punctuator, [], [')']⟩] ++
          ⟨.punctuator, [], ['\x7b']⟩ :: ([] ++
              ⟨.punctuator, [], ['\x7d']⟩ ::
                [⟨.punctuator, [], ['\x7d']⟩, ⟨.punctuator, [], [')']⟩])) := by
  have headed : Heading [⟨.identifier, [], ['m']⟩, ⟨.punctuator, [], ['(']⟩,
      ⟨.punctuator, [], [')']⟩] :=
    .named (by decide) (by decide) (by decide) (by decide) .nil
  have nested : Token.WellNested [⟨.identifier, [], "await".toList⟩,
      ⟨.identifier, [' '], ['y']⟩] :=
    .plain (by decide) (by decide) (.plain (by decide) (by decide) .nil)
  exact ⟨headed, nested, suspends_congr_body headed (by decide) (by decide) nested .nil _ _⟩

end ScriptConsole.Suspension

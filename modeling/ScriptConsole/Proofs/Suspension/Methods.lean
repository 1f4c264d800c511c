import ScriptConsole.Proofs.Suspension.Finished

/-!
# What is searched in brackets

A run in brackets that are no function body is searched as if it stood alone.
The braces of a method are a function body if the round brackets before them are
taken for a parameter list, which the token before those decides: they are after
most words, but not after a word such as `delete`, a literal or a computed key.
So whether an `await` in a method is hidden depends on the name of the method.
-/

namespace ScriptConsole.Suspension

open Token

namespace Context

/-- A context within another one, in which no arrow body is open. -/
def above (inner outer : Context) : Context where
  frames := inner.frames ++ outer.frames
  arrows := inner.arrows.map (· + outer.depth)
  classes := inner.classes.map (· + outer.depth) ++ outer.classes
  afterParameters := inner.afterParameters

section Above

variable {outer : Context}

theorem depth_above (inner : Context) : (inner.above outer).depth = inner.depth + outer.depth := by
  simp [depth, above]

theorem nested_above (noBody : outer.frames.any (·.body) = false) (inner : Context) :
    (inner.above outer).nested = inner.nested := by
  have arrows : (inner.arrows.map (· + outer.depth)).isEmpty = inner.arrows.isEmpty := by
    cases inner.arrows <;> rfl
  rw [nested, above, List.any_append, noBody, Bool.or_false, arrows, nested]

theorem settle_above (previous : Option Token) (token : Token) (inner : Context) :
    (inner.above outer).settle previous token = (inner.settle previous token).above outer := by
  have same : (fun arrow => arrow == inner.depth + outer.depth) ∘ (· + outer.depth) =
      (· == inner.depth) := by
    funext arrow
    simp
  unfold settle
  split
  · simp only [depth_above]
    simp only [above, List.dropWhile_map, same]
  · rfl

theorem advance_plain_above {token : Token} (opens : token.opens? = none)
    (closes : token.closes? = none) (before : List Token) (next : Option Token)
    (inner : Context) :
    (inner.above outer).advance before token next = (inner.advance before token next).above outer := by
  simp only [advance, opens, closes]
  split
  · simp [above, depth]
  · split
    · simp [above, depth]
    · rfl

variable (below : ∀ heading ∈ outer.classes, heading < outer.depth)
include below

theorem awaitsClassBody_above (inner : Context) :
    (inner.above outer).awaitsClassBody = inner.awaitsClassBody := by
  rw [awaitsClassBody, awaitsClassBody, depth_above, above]
  cases inner.classes with
  | nil =>
      cases classes : outer.classes with
      | nil => rfl
      | cons heading rest =>
          have := below heading (by simp [classes])
          simp
          omega
  | cons heading rest => simp

theorem enter_above (before : List Token) (bracket : Bracket) (inner : Context) :
    (inner.above outer).enter before bracket = (inner.enter before bracket).above outer := by
  have classes : (if bracket == .curly && inner.awaitsClassBody then
        (inner.above outer).classes.tail else (inner.above outer).classes) =
      (if bracket == .curly && inner.awaitsClassBody then inner.classes.tail
        else inner.classes).map (· + outer.depth) ++ outer.classes := by
    split
    · rename_i heading
      simp only [awaitsClassBody, Bool.and_eq_true, beq_iff_eq] at heading
      obtain ⟨rest, hrest⟩ := List.head?_eq_some_iff.1 heading.2
      simp [above, hrest]
    · rfl
  simp only [enter, awaitsClassBody_above below, classes]
  rfl

theorem leave_above {inner : Context} (inside : inner.frames ≠ []) (bracket : Bracket) :
    (inner.above outer).leave bracket = (inner.leave bracket).above outer := by
  obtain ⟨frame, frames, hframes⟩ := List.exists_cons_of_ne_nil inside
  have arrows : (fun arrow => decide (frames.length + outer.depth < arrow)) ∘ (· + outer.depth) =
      (fun arrow => decide (frames.length < arrow)) := by
    funext arrow
    simp
  have classes : (fun heading => decide (heading ≤ frames.length + outer.depth)) ∘
      (· + outer.depth) = (fun heading => decide (heading ≤ frames.length)) := by
    funext heading
    simp
  have kept : outer.classes.filter (· ≤ frames.length + outer.depth) = outer.classes := by
    rw [List.filter_eq_self]
    intro heading mem
    have := below heading mem
    simp
    omega
  have length : (frames ++ outer.frames).length = frames.length + outer.depth := by
    simp [depth]
  simp only [leave, above, hframes, List.cons_append, List.tail_cons, length, List.dropWhile_map,
    arrows, List.filter_append, List.filter_map, classes, kept]
  rfl

/-- A well-nested run is searched within a context as outside of it. -/
theorem run_above {tokens : List Token} (nested : WellNested tokens) (before : List Token)
    (inner : Context) (next : Option Token) :
    (inner.above outer).run before next tokens = (inner.run before next tokens).above outer := by
  induction nested generalizing before inner next with
  | nil => rfl
  | @plain token rest opens closes tail ih =>
      rw [run, run, settle_above, advance_plain_above opens closes]
      exact ih _ _ _
  | @group opening closing within rest bracket opens closes inside tail ihWithin ihTail =>
      have entered : ((inner.settle before.head? opening).enter before bracket).frames ≠ [] :=
        List.cons_ne_nil _ _
      have kept := agreesOutside_run inside (opening :: before)
        ((inner.settle before.head? opening).enter before bracket) (some closing)
      have settled := (AgreesOutside.settle (within.reverse ++ opening :: before).head? closing
        (((inner.settle before.head? opening).enter before bracket).run (opening :: before)
          (some closing) within)).frames
      rw [run, run, run_append, run_append, run, run]
      simp only [List.head?_cons, Option.some_or, advance_of_opens opens, advance_of_closes closes]
      rw [settle_above, enter_above below, ihWithin, settle_above,
        leave_above below (by rw [settled, kept.frames]; exact entered)]
      exact ihTail _ _ _

end Above

end Context

theorem pointAt_above {outer : Context} (noBody : outer.frames.any (·.body) = false)
    (previous next : Option Token) (inner : Context) (token : Token) :
    pointAt previous (inner.above outer) token next = pointAt previous inner token next := by
  rw [pointAt, pointAt, Context.settle_above, Context.nested_above noBody]

theorem found_above {outer : Context} (noBody : outer.frames.any (·.body) = false)
    (below : ∀ heading ∈ outer.classes, heading < outer.depth) {tokens : List Token}
    (nested : WellNested tokens) (before : List Token) (inner : Context) (next : Option Token) :
    found before (inner.above outer) next tokens = found before inner next tokens := by
  induction nested generalizing before inner next with
  | nil => rfl
  | @plain token rest opens closes tail ih =>
      rw [found, found, pointAt_above noBody, Context.settle_above,
        Context.advance_plain_above opens closes, ih]
  | @group opening closing within rest bracket opens closes inside tail ihWithin ihTail =>
      have entered : ((inner.settle before.head? opening).enter before bracket).frames ≠ [] :=
        List.cons_ne_nil _ _
      rw [found, found, found_append, found_append, found, found, pointAt_above noBody,
        Context.advance_of_opens opens, Context.advance_of_opens opens,
        Context.advance_of_closes closes, Context.advance_of_closes closes, Context.settle_above,
        Context.enter_above below, ihWithin, Context.run_above below inside, pointAt_above noBody,
        Context.settle_above, Context.leave_above below, ihTail]
      rw [(Context.AgreesOutside.settle _ _ _).frames,
        (Context.agreesOutside_run inside _ _ _).frames]
      exact entered

/-- Before a bracket that closes a run is searched as before its end. -/
theorem found_congr_closing {closing : Token} {bracket : Bracket}
    (closes : closing.closes? = some bracket) (before : List Token) (context : Context)
    (tokens : List Token) :
    found before context (some closing) tokens = found before context none tokens := by
  obtain ⟨kind, text⟩ := closes?_eq_some_iff.1 closes
  have noOperand : closing.isPunctuatorIn nonOperandPunctuators = true := by
    cases bracket <;> simp [isPunctuatorIn, kind, text, nonOperandPunctuators, Bracket.closing]
  have point (previous : Option Token) (context : Context) (token : Token) :
      pointAt previous context token (some closing) = pointAt previous context token none := by
    simp [pointAt, isOperatorBetween, noOperand]
  have notCurly : closing.opensWith .curly = false := by
    simp [opensWith, opens?_eq_none_of_closes? closes]
  have advance (context : Context) (before : List Token) (token : Token) :
      context.advance before token (some closing) = context.advance before token none := by
    simp [Context.advance, notCurly]
  induction tokens generalizing before context with
  | nil => rfl
  | cons token rest ih =>
      rw [found, found]
      cases rest with
      | nil => simp only [List.head?_nil, Option.none_or, point, advance, ih]
      | cons next rest => simp only [List.head?_cons, Option.some_or, ih]

namespace Context

/-- Outside all bodies, and no class heading waits further in. -/
structure Exposed (context : Context) : Prop where
  frames : context.frames.any (·.body) = false
  arrows : context.arrows = []
  classes : ∀ heading ∈ context.classes, heading ≤ context.depth

theorem Exposed.leave_enter {context : Context} (exposed : context.Exposed)
    {before : List Token} {bracket : Bracket}
    (noBody : (bracket == .curly && context.opensBody before) = false) :
    (context.enter before bracket).leave bracket =
      { context with afterParameters := bracket == .round && opensParameters before } := by
  have notAwaited : (bracket == .curly && context.awaitsClassBody) = false := by
    simp only [opensBody, Bool.and_eq_false_iff, Bool.or_eq_false_iff] at noBody ⊢
    exact noBody.imp_right fun none => none.2
  have kept : context.classes.filter (· ≤ context.frames.length) = context.classes :=
    List.filter_eq_self.2 fun heading mem => decide_eq_true (exposed.classes heading mem)
  have parameters : ((bracket == .round && opensParameters before) && bracket == .round) =
      (bracket == .round && opensParameters before) := by
    cases bracket <;> simp
  simp [leave, enter, notAwaited, exposed.arrows, kept, parameters]

end Context

/-- A run in brackets that are no body is searched as if it stood alone. -/
theorem found_inside {inner : List Token} {opening closing : Token} {bracket : Bracket}
    (opens : opening.opens? = some bracket) (closes : closing.closes? = some bracket)
    (nested : WellNested inner) {before : List Token} {context : Context}
    (exposed : context.Exposed)
    (noBody : (bracket == .curly && context.opensBody before) = false) :
    found (opening :: before) (context.enter before bracket) (some closing) inner =
      suspends inner := by
  obtain ⟨kind, text⟩ := opens?_eq_some_iff.1 opens
  have neutral : opening.isPunctuatorIn [".", "?.", "=>", "*"] = false := by
    cases bracket <;> simp [isPunctuatorIn, kind, text, Bracket.opening]
  have outside : context.enter before bracket =
      Context.outermost.above (context.enter before bracket) := by
    simp [Context.above, Context.outermost, Context.enter, exposed.arrows]
  have frames : (context.enter before bracket).frames.any (·.body) = false := by
    have first : (bracket == .curly && context.opensBody before) = false := noBody
    simpa [Context.enter, exposed.frames, Context.opensBody] using first
  have below : ∀ heading ∈ (context.enter before bracket).classes,
      heading < (context.enter before bracket).depth := by
    intro heading mem
    refine Nat.lt_succ_of_le (exposed.classes heading ?_)
    simp only [Context.enter] at mem
    split at mem
    · exact List.mem_of_mem_tail mem
    · exact mem
  have alone := suspendsAfter_append (opening :: before) .outermost inner []
  rw [List.append_nil, suspendsAfter_nil, Bool.or_false, List.head?_nil,
    suspendsAfter_of_punctuator kind neutral] at alone
  rw [outside, found_above frames below nested, found_congr_closing closes, alone]

/-- Brackets that are no body are searched as if what they hold stood alone, and what follows
them as if they were empty. -/
theorem suspendsAfter_group {inner : List Token} {opening closing : Token} {bracket : Bracket}
    (opens : opening.opens? = some bracket) (closes : closing.closes? = some bracket)
    (nested : WellNested inner) {before : List Token} {context : Context}
    (exposed : context.Exposed)
    (noBody : (bracket == .curly && context.opensBody before) = false) (right : List Token) :
    suspendsAfter before context (opening :: (inner ++ closing :: right)) =
      (suspends inner ||
        suspendsAfter (closing :: (inner.reverse ++ opening :: before))
          { context with afterParameters := bracket == .round && opensParameters before }
          right) := by
  rw [suspendsAfter_cons_eq_pointAt, pointAt_punctuator (opens?_eq_some_iff.1 opens).1,
    Bool.false_or, Context.settle_of_arrows_eq_nil exposed.arrows, Context.advance_of_opens opens,
    suspendsAfter_append, List.head?_cons, found_inside opens closes nested exposed noBody,
    suspendsAfter_cons_eq_pointAt, pointAt_punctuator (closes?_eq_some_iff.1 closes).1,
    Bool.false_or, Context.advance_of_closes closes,
    Context.leave_settle_of_agreesOutside (Context.agreesOutside_run nested _ _ _),
    exposed.leave_enter noBody]

/-- After a token that is no bracket and no arrow: the word `class` begins a heading, and
nothing else matters. -/
def Context.pass (context : Context) (token : Token) : Context :=
  { context with
    classes := if token.isWord "class" then context.depth :: context.classes else context.classes
    afterParameters := false }

namespace Context

theorem pass_outermost {token : Token} (noClass : token.isWord "class" = false) :
    outermost.pass token = outermost := by
  simp [pass, noClass, outermost]

theorem pass_outermost_of_class {token : Token} (isClass : token.isWord "class" = true) :
    outermost.pass token = ⟨[], [], [0], false⟩ := by
  simp [pass, isClass, outermost, depth]

theorem exposed_outermost : outermost.Exposed :=
  ⟨rfl, rfl, by simp [outermost]⟩

end Context

theorem suspendsAfter_plain {token : Token} (opens : token.opens? = none)
    (closes : token.closes? = none) (noArrow : token.isPunctuator "=>" = false)
    {context : Context} (none : context.arrows = []) (before rest : List Token) :
    suspendsAfter before context (token :: rest) =
      (pointAt before.head? context token rest.head? ||
        suspendsAfter (token :: before) (context.pass token) rest) := by
  rw [suspendsAfter_cons_eq_pointAt, Context.settle_of_arrows_eq_nil none]
  simp only [Context.advance, opens, closes, noArrow, Bool.false_and, Bool.false_eq_true, if_false]
  unfold Context.pass
  split <;> rfl

/-- The name of a method: a word of any kind, quoted text or a number, or a key in square
brackets that is computed. -/
inductive MethodName where
  | word (token : Token) (identifier : token.isIdentifier = true)
  | literal (token : Token) (kind : token.kind = .string ∨ token.kind = .number)
  | computed (opening closing : Token) (key : List Token) (opens : opening.opens? = some .square)
      (closes : closing.closes? = some .square) (nested : WellNested key)

namespace MethodName

def tokens : MethodName → List Token
  | word token _ | literal token _ => [token]
  | computed opening closing key _ _ _ => opening :: (key ++ [closing])

/-- Whether a suspension point is found at the name itself. -/
def suspends : MethodName → Bool
  | word token _ => token.isWord "await"
  | literal _ _ => false
  | computed _ _ key _ _ _ => Suspension.suspends key

/-- Whether the round brackets after the name are taken for a parameter list. -/
def takesParameters : MethodName → Bool
  | word token _ => !token.isWordIn nonCallableWords
  | _ => false

/-- The class headings that the name seems to begin. -/
def headings : MethodName → List Nat
  | word token _ => if token.isWord "class" then [0] else []
  | _ => []

theorem nested (name : MethodName) : WellNested name.tokens := by
  cases name with
  | word token identifier =>
      exact .plain (plain_of_isIdentifier identifier).1 (plain_of_isIdentifier identifier).2 .nil
  | literal token kind =>
      have plain := @plain_of_kind token (by rcases kind with h | h <;> simp [h])
      exact .plain plain.1 plain.2 .nil
  | computed opening closing key opens closes nested => exact .group opens closes nested .nil

theorem opensParameters_eq (name : MethodName) (before : List Token) :
    opensParameters (name.tokens.reverse ++ before) = name.takesParameters := by
  cases name with
  | word token identifier =>
      have kind : token.kind = .identifier := by simpa [isIdentifier] using identifier
      simp [tokens, takesParameters, opensParameters, kind]
  | literal token kind =>
      rcases kind with kind | kind <;> simp [tokens, takesParameters, opensParameters, kind]
  | computed opening closing key opens closes nested =>
      obtain ⟨kind, text⟩ := closes?_eq_some_iff.1 closes
      simp [tokens, takesParameters, opensParameters, kind, isPunctuator, text, Bracket.closing]

/-- Round brackets after the word `class` are taken for parameters, so no heading waits after
a name that takes none. -/
theorem headings_eq_nil {name : MethodName} (other : name.takesParameters = false) :
    name.headings = [] := by
  cases name with
  | word token identifier =>
      have noClass : token.isWord "class" = false := by
        rw [Bool.eq_false_iff]
        intro isClass
        obtain ⟨kind, text⟩ := isWord_iff.1 isClass
        simp [takesParameters, isWordIn, kind, text, nonCallableWords] at other
      simp [headings, noClass]
  | literal token kind => rfl
  | computed opening closing key opens closes nested => rfl

theorem exposed (name : MethodName) (afterParameters : Bool) :
    (⟨[], [], name.headings, afterParameters⟩ : Context).Exposed := by
  refine ⟨rfl, rfl, ?_⟩
  cases name with
  | word token identifier =>
      simp only [headings]
      split <;> simp
  | literal token kind => simp [headings]
  | computed opening closing key opens closes nested => simp [headings]

theorem suspendsAfter_name (name : MethodName) {previous opening : Token}
    (noMark : previous.kind ≠ .punctuator) (opens : opening.opens? = some .round)
    (rest : List Token) :
    suspendsAfter [previous] .outermost (name.tokens ++ opening :: rest) =
      (name.suspends ||
        suspendsAfter (name.tokens.reverse ++ [previous]) ⟨[], [], name.headings, false⟩
          (opening :: rest)) := by
  obtain ⟨openingKind, openingText⟩ := opens?_eq_some_iff.1 opens
  cases name with
  | word token identifier =>
      have kind : token.kind = .identifier := by simpa [isIdentifier] using identifier
      have plain := plain_of_isIdentifier identifier
      have operator : isOperatorBetween (some previous) (some opening) = true := by
        simp [isOperatorBetween, noMark, isPunctuatorIn, openingKind, openingText,
          nonOperandPunctuators, Bracket.opening]
      have point : pointAt (some previous) .outermost token (some opening) =
          token.isWord "await" := by
        rw [pointAt, Context.settle_outermost]
        simp [Context.nested, Context.outermost, operator, kind]
      rw [tokens, List.singleton_append, suspendsAfter_plain plain.1 plain.2
        (by simp [isPunctuator, kind]) rfl]
      simp only [List.head?_cons, point]
      rfl
  | literal token kind =>
      have plain := @plain_of_kind token (by rcases kind with h | h <;> simp [h])
      have noWord (word : String) : token.isWord word = false := by
        rcases kind with kind | kind <;> simp [isWord, kind]
      rw [tokens, List.singleton_append, suspendsAfter_plain plain.1 plain.2
        (by rcases kind with kind | kind <;> simp [isPunctuator, kind]) rfl,
        pointAt_eq_false (noWord _) (by rcases kind with kind | kind <;> simp [kind]),
        Context.pass_outermost (noWord _)]
      rfl
  | computed first last key begins ends nested =>
      have parts : tokens (computed first last key begins ends nested) ++ opening :: rest =
          first :: (key ++ last :: opening :: rest) := by simp [tokens]
      have latest : (tokens (computed first last key begins ends nested)).reverse ++ [previous] =
          last :: (key.reverse ++ [first, previous]) := by simp [tokens]
      rw [parts, latest, suspendsAfter_group begins ends nested Context.exposed_outermost rfl]
      rfl

end MethodName

/-- A constant whose value is an object with one asynchronous method: the tokens of
`const variable = { async name ( parameters ) { body } }`. -/
structure AsyncMethod where
  keyword : Token
  target : Token
  assign : Token
  opening : Token
  async : Token
  name : MethodName
  first : Token
  parameters : List Token
  last : Token
  start : Token
  body : List Token
  finish : Token
  closing : Token
  isConst : keyword.isWord "const" = true
  isTarget : target.isIdentifier = true
  isAssign : assign.isPunctuator "=" = true
  opens : opening.opens? = some .curly
  isAsync : async.isWord "async" = true
  begins : first.opens? = some .round
  nestedParameters : WellNested parameters
  ends : last.closes? = some .round
  starts : start.opens? = some .curly
  nestedBody : WellNested body
  finishes : finish.closes? = some .curly
  closes : closing.closes? = some .curly

namespace AsyncMethod

def member (method : AsyncMethod) : List Token :=
  method.async :: (method.name.tokens ++ method.first :: (method.parameters ++
    method.last :: method.start :: (method.body ++ [method.finish])))

def tokens (method : AsyncMethod) : List Token :=
  method.keyword :: method.target :: method.assign :: method.opening ::
    (method.member ++ [method.closing])

variable (method : AsyncMethod)

theorem nested_member : WellNested method.member := by
  have async := plain_of_isIdentifier (isIdentifier_of_isWord method.isAsync)
  exact .plain async.1 async.2 (method.name.nested.append (.group method.begins method.ends
    method.nestedParameters (.group method.starts method.finishes method.nestedBody .nil)))

/-- The body of a method is hidden if its name takes parameters, and otherwise is searched as
if it stood alone. -/
theorem suspendsAfter_body (before : List Token) :
    suspendsAfter (method.last :: before)
        ⟨[], [], method.name.headings, method.name.takesParameters⟩
        (method.start :: (method.body ++ [method.finish])) =
      (!method.name.takesParameters && suspends method.body) := by
  cases takes : method.name.takesParameters with
  | true =>
      have opened : ((⟨[], [], method.name.headings, true⟩ : Context).settle
          (method.last :: before).head? method.start).opensBody (method.last :: before) = true := by
        rw [Context.settle_of_arrows_eq_nil rfl]
        exact Context.opensBody_of_afterParameters method.ends before rfl
      rw [Suspension.suspendsAfter_body method.starts method.finishes method.nestedBody opened,
        suspendsAfter_nil]
      rfl
  | false =>
      obtain ⟨kind, text⟩ := closes?_eq_some_iff.1 method.ends
      have noBody : (⟨[], [], method.name.headings, false⟩ : Context).opensBody
          (method.last :: before) = false := by
        simp [Context.opensBody, Context.awaitsClassBody, MethodName.headings_eq_nil takes,
          isPunctuator, text, Bracket.closing]
      rw [suspendsAfter_group method.starts method.finishes method.nestedBody
        (method.name.exposed false) (by rw [noBody, Bool.and_false]), suspendsAfter_nil]
      simp

theorem suspends_member :
    suspends method.member =
      (method.name.suspends || suspends method.parameters ||
        (!method.name.takesParameters && suspends method.body)) := by
  obtain ⟨kind, text⟩ := isWord_iff.1 method.isAsync
  have async := plain_of_isIdentifier (isIdentifier_of_isWord method.isAsync)
  have noAwait : method.async.isWord "await" = false := by simp [isWord, kind, text]
  have noClass : method.async.isWord "class" = false := by simp [isWord, kind, text]
  have begun (rest : List Token) : suspends (method.async :: rest) =
      suspendsAfter [method.async] .outermost rest := by
    rw [suspends, suspendsAfter_plain async.1 async.2 (by simp [isPunctuator, kind]) rfl,
      pointAt_eq_false noAwait (by simp [kind]), Bool.false_or, Context.pass_outermost noClass]
  rw [member, begun, method.name.suspendsAfter_name (by simp [kind]) method.begins,
    suspendsAfter_group method.begins method.ends method.nestedParameters
      (method.name.exposed false) rfl,
    method.name.opensParameters_eq]
  simp only [BEq.rfl, Bool.true_and]
  rw [method.suspendsAfter_body, Bool.or_assoc]

/-- The braces of an object are searched as if the method stood alone, unless the name of the
constant is taken for a class heading. -/
theorem suspends_tokens_eq :
    suspends method.tokens = (!method.target.isWord "class" && suspends method.member) := by
  obtain ⟨constKind, constText⟩ := isWord_iff.1 method.isConst
  obtain ⟨assignKind, assignText⟩ := isPunctuator_iff.1 method.isAssign
  have targetKind : method.target.kind = .identifier := by
    simpa [isIdentifier] using method.isTarget
  have const := plain_of_isIdentifier (isIdentifier_of_isWord method.isConst)
  have target := plain_of_isIdentifier method.isTarget
  have assign := plain_of_isPunctuator (by simp) method.isAssign
  have noPoint (previous : Option Token) (context : Context) :
      pointAt previous context method.target (some method.assign) = false := by
    simp [pointAt, isOperatorBetween, isPunctuatorIn, assignKind, assignText,
      nonOperandPunctuators, targetKind]
  have afterConst : Context.outermost.pass method.keyword = .outermost :=
    Context.pass_outermost (by simp [isWord, constText])
  have afterAssign (context : Context) (none : context.afterParameters = false) :
      context.pass method.assign = context := by
    simp [Context.pass, isWord, assignKind, ← none]
  have begun (rest : List Token) :
      suspends (method.keyword :: method.target :: method.assign :: rest) =
        suspendsAfter [method.assign, method.target, method.keyword]
          (Context.outermost.pass method.target) rest := by
    rw [suspends, suspendsAfter_plain const.1 const.2 (by simp [isPunctuator, constKind]) rfl,
      pointAt_eq_false (by simp [isWord, constText]) (by simp [constKind]), Bool.false_or,
      afterConst,
      suspendsAfter_plain target.1 target.2 (by simp [isPunctuator, targetKind]) rfl,
      show (method.assign :: rest).head? = some method.assign from rfl, noPoint, Bool.false_or,
      suspendsAfter_plain assign.1 assign.2 (by simp [isPunctuator, assignText]) rfl,
      pointAt_punctuator assignKind, Bool.false_or, afterAssign _ rfl]
  rw [tokens, begun]
  cases isClass : method.target.isWord "class" with
  | true =>
      have opened : ((⟨[], [], [0], false⟩ : Context).settle
          ([method.assign, method.target, method.keyword] : List Token).head?
          method.opening).opensBody [method.assign, method.target, method.keyword] = true := by
        rw [Context.settle_of_arrows_eq_nil rfl]
        exact Context.opensBody_of_awaitsClassBody _ rfl
      rw [Context.pass_outermost_of_class isClass, Suspension.suspendsAfter_body method.opens
        method.closes method.nested_member opened, suspendsAfter_nil]
      rfl
  | false =>
      have noBody : Context.outermost.opensBody
          [method.assign, method.target, method.keyword] = false := by
        simp [Context.opensBody, Context.awaitsClassBody, Context.outermost, isPunctuator,
          assignText]
      rw [Context.pass_outermost isClass, suspendsAfter_group method.opens method.closes
        method.nested_member Context.exposed_outermost (by rw [noBody, Bool.and_false]),
        suspendsAfter_nil]
      simp

/-- An object with a method suspends if its name, its parameters or, where the name takes no
parameters, its body does. -/
theorem suspends_eq_name_parameters_body :
    suspends method.tokens =
      (!method.target.isWord "class" &&
        (method.name.suspends || suspends method.parameters ||
          (!method.name.takesParameters && suspends method.body))) := by
  rw [suspends_tokens_eq, suspends_member]

/-- The constant `const v = { async delete() { await b } }`. -/
def deletes : AsyncMethod where
  keyword := ⟨.identifier, [], "const".toList⟩
  target := ⟨.identifier, [' '], ['v']⟩
  assign := ⟨.punctuator, [' '], ['=']⟩
  opening := ⟨.punctuator, [' '], ['\x7b']⟩
  async := ⟨.identifier, [' '], "async".toList⟩
  name := .word ⟨.identifier, [' '], "delete".toList⟩ (by decide)
  first := ⟨.punctuator, [], ['(']⟩
  parameters := []
  last := ⟨.punctuator, [], [')']⟩
  start := ⟨.punctuator, [' '], ['\x7b']⟩
  body := [⟨.identifier, [' '], "await".toList⟩, ⟨.identifier, [' '], ['b']⟩]
  finish := ⟨.punctuator, [' '], ['\x7d']⟩
  closing := ⟨.punctuator, [' '], ['\x7d']⟩
  isConst := by decide
  isTarget := by decide
  isAssign := by decide
  opens := by decide
  isAsync := by decide
  begins := by decide
  nestedParameters := .nil
  ends := by decide
  starts := by decide
  nestedBody := wellNested_of_plain (by decide)
  finishes := by decide
  closes := by decide

theorem suspends_eq_name_parameters_body_deletes :
    suspends deletes.tokens =
      (!deletes.target.isWord "class" &&
        (deletes.name.suspends || suspends deletes.parameters ||
          (!deletes.name.takesParameters && suspends deletes.body))) :=
  deletes.suspends_eq_name_parameters_body

/-- The body of a method by the name `delete` is searched. -/
theorem suspends_deletes :
    tokenize "const v = \x7b async delete() \x7b await b \x7d \x7d".toList = deletes.tokens ∧
      suspends deletes.tokens = true := by
  have scanned : Scan.within 14 none "const v = \x7b async delete() \x7b await b \x7d \x7d".toList =
      some ⟨deletes.tokens, []⟩ := by decide
  refine ⟨congrArg Scan.tokens (Scan.ofSource_of_within scanned), ?_⟩
  simp only [suspends, tokens, member, MethodName.tokens, deletes, List.cons_append,
    List.nil_append, suspendsAfter_cons, suspendsAfter_nil]
  decide

end AsyncMethod

end ScriptConsole.Suspension

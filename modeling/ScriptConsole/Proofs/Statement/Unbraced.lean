import ScriptConsole.Proofs.AsyncWrap.Body
import ScriptConsole.Proofs.Nesting.Outside
import ScriptConsole.Proofs.Statement.DoWhile

/-!
# Control statements without braces

A statement that begins with `if`, `for` or `while` is taken to end at a curly
bracket that closes outside all others, whether its own body or an object in its
body.  So `if (...) x = ...` is one statement exactly if no such bracket stands
before more of it.
-/

namespace ScriptConsole.Statement

open Token
open Declaration (depthAfter)

/-- Whether a control statement goes on after a curly bracket before these tokens. -/
def goesOnBefore (rest : List Token) : Bool :=
  rest.isEmpty || continuesAfterBlock .block rest.head?

/-- Whether the tokens, which begin inside `depth` brackets, leave a control statement whole:
each curly bracket that closes outside all others is the last token or stands before a word
with which the statement goes on. -/
def unbrokenFrom (depth : Nat) : List Token → Bool
  | [] => true
  | token :: rest =>
      (depth != 1 || !token.closesWith .curly || goesOnBefore rest) &&
        unbrokenFrom (depthAfter depth token) rest

def unbroken (tokens : List Token) : Bool :=
  unbrokenFrom 0 tokens

theorem unbrokenFrom_append_of_inside {inner : List Token} (nested : WellNested inner)
    (depth : Nat) (rest : List Token) :
    unbrokenFrom (depth + 1) (inner ++ rest) = unbrokenFrom (depth + 1) rest := by
  refine nested.read_append_of_skips (fun depth token rest inside => ?_) depth rest
  have notLast : (depth + 1 != 1 || !token.closesWith .curly) = true := by
    cases depth with
    | succ depth => simp
    | zero =>
        cases closes : token.closes? with
        | none => simp [closesWith, closes]
        | some bracket => exact absurd (depthAfter_of_closes closes 1) inside
  rw [unbrokenFrom, notLast, Bool.true_or, Bool.true_and]

theorem unbroken_plain {token : Token} (opens : token.opens? = none)
    (closes : token.closes? = none) (rest : List Token) :
    unbroken (token :: rest) = unbroken rest := by
  simp [unbroken, unbrokenFrom, depthAfter_of_plain opens closes]

theorem unbroken_group {opening closing : Token} {inner : List Token} {bracket : Bracket}
    (opens : opening.opens? = some bracket) (closes : closing.closes? = some bracket)
    (nested : WellNested inner) (rest : List Token) :
    unbroken (opening :: (inner ++ closing :: rest)) =
      ((bracket != .curly || goesOnBefore rest) && unbroken rest) := by
  have curly : closing.closesWith .curly = (bracket == .curly) := by simp [closesWith, closes]
  rw [unbroken, unbrokenFrom, depthAfter_of_opens opens, unbrokenFrom_append_of_inside nested,
    unbrokenFrom, depthAfter_of_closes closes, curly]
  rfl

namespace Cutter

section Block

variable {tokens : List Token} (nested : WellNested tokens)
  (single : ∀ token ∈ outside tokens, token.isPunctuator ";" = false)
  (oneLine : ∀ token ∈ outside tokens, token.startsLine = false)

theorem endsBefore_of_sameLine {token : Token} (sameLine : token.startsLine = false)
    (cutter : Cutter) (previous : Option Token) (draft : Draft) :
    cutter.endsBefore previous token draft = false := by
  simp [endsBefore, sameLine]

/-- A token on the same line that is no bracket and no semicolon belongs to the statement that
has begun. -/
theorem advance_plain {token : Token} (opens : token.opens? = none)
    (closes : token.closes? = none) (other : token.isPunctuator ";" = false)
    {kind : Kind} {reversed before : List Token} {afterHeader : Bool}
    (goesOn : (⟨some ⟨kind, reversed⟩, 0, false, afterHeader⟩ : Cutter).endsBefore
      before.head? token ⟨kind, reversed⟩ = false) (rest : List Token) :
    (⟨some ⟨kind, reversed⟩, 0, false, afterHeader⟩ : Cutter).advance before token rest =
      ([], ⟨some ⟨kind, token :: reversed⟩, 0, false, false⟩) := by
  simp [advance, continued?, goesOn, add, opens, closes, other, Draft.push]

include nested single oneLine

/-- An unbroken run is read into the statement that has begun, and may end it at its end. -/
theorem through_of_unbroken (whole : unbroken tokens = true) (reversed before rest : List Token)
    (afterHeader : Bool) :
    (∃ header, (⟨some ⟨.block, reversed⟩, 0, false, afterHeader⟩ : Cutter).through before
        tokens rest = ([], ⟨some ⟨.block, tokens.reverse ++ reversed⟩, 0, false, header⟩)) ∨
      (⟨some ⟨.block, reversed⟩, 0, false, afterHeader⟩ : Cutter).through before tokens rest =
        ([⟨.block, reversed.reverse ++ tokens, none⟩], .initial) := by
  induction nested generalizing reversed before afterHeader with
  | nil => exact .inl ⟨afterHeader, rfl⟩
  | @plain token tail opens closes nestedTail ih =>
      rw [outside_plain opens closes, List.forall_mem_cons] at single oneLine
      rw [unbroken_plain opens closes] at whole
      rw [through, advance_plain opens closes single.1 (endsBefore_of_sameLine oneLine.1 ..)]
      refine (ih single.2 oneLine.2 whole (token :: reversed) (token :: before) false).imp ?_ ?_
      · rintro ⟨header, reads⟩
        exact ⟨header, by simp [reads]⟩
      · intro reads
        simp [reads]
  | @group opening closing inner tail bracket opens closes within nestedTail _ ih =>
      rw [outside_group opens closes within, List.forall_mem_cons] at single oneLine
      rw [unbroken_group opens closes within, Bool.and_eq_true] at whole
      have goesOn := endsBefore_of_sameLine oneLine.1
        ⟨some ⟨.block, reversed⟩, 0, false, afterHeader⟩ before.head? ⟨.block, reversed⟩
      have parts : opening :: (inner ++ closing :: tail) =
          opening :: (inner ++ [closing]) ++ tail := by simp
      by_cases ends : tail = [] ∧ bracket = .curly ∧ continuesAfterBlock .block rest.head? = false
      · obtain ⟨rfl, rfl, ends⟩ := ends
        exact .inr (through_group_of_ends opens within closes goesOn rfl ends)
      · have stays : bracket = .curly → Kind.block.endsWithBlock = true →
            continuesAfterBlock .block (tail ++ rest).head? = true := by
          rintro rfl -
          cases tail with
          | nil => simpa using ends
          | cons next tail => simpa [goesOnBefore] using whole.1
        have group := through_group opens within closes goesOn stays
        rw [parts, through_append, group]
        refine (ih single.2 oneLine.2 whole.2 (closing :: (inner.reverse ++ opening :: reversed))
          ((opening :: (inner ++ [closing])).reverse ++ before)
          (bracket == .round && opensHeader before)).imp ?_ ?_
        · rintro ⟨header, reads⟩
          exact ⟨header, by rw [reads]; simp⟩
        · intro reads
          rw [reads]
          simp

/-- A run that is not unbroken ends the statement that has begun before its own end. -/
theorem exists_cutFrom_of_broken (broken : unbroken tokens = false)
    (reversed before rest : List Token) (afterHeader : Bool) :
    ∃ taken next right statements, tokens = taken ++ next :: right ∧
      cutFrom before ⟨some ⟨.block, reversed⟩, 0, false, afterHeader⟩ (tokens ++ rest) =
        ⟨.block, reversed.reverse ++ taken, none⟩ :: statements := by
  induction nested generalizing reversed before afterHeader with
  | nil => cases broken
  | @plain token tail opens closes nestedTail ih =>
      rw [outside_plain opens closes, List.forall_mem_cons] at single oneLine
      rw [unbroken_plain opens closes] at broken
      obtain ⟨taken, next, right, statements, rfl, cut⟩ :=
        ih single.2 oneLine.2 broken (token :: reversed) (token :: before) false
      refine ⟨token :: taken, next, right, statements, rfl, ?_⟩
      rw [List.cons_append, cutFrom_cons, advance_plain opens closes single.1
        (endsBefore_of_sameLine oneLine.1 ..), cut]
      simp
  | @group opening closing inner tail bracket opens closes within nestedTail _ ih =>
      rw [outside_group opens closes within, List.forall_mem_cons] at single oneLine
      rw [unbroken_group opens closes within] at broken
      have goesOn := endsBefore_of_sameLine oneLine.1
        ⟨some ⟨.block, reversed⟩, 0, false, afterHeader⟩ before.head? ⟨.block, reversed⟩
      have parts : opening :: (inner ++ closing :: tail) ++ rest =
          opening :: (inner ++ [closing]) ++ (tail ++ rest) := by simp
      cases here : bracket != .curly || goesOnBefore tail with
      | false =>
          simp only [goesOnBefore, Bool.or_eq_false_iff, bne_eq_false_iff_eq] at here
          obtain ⟨rfl, nonempty, ends⟩ := here
          obtain ⟨next, right, rfl⟩ := List.exists_cons_of_ne_nil (by simpa using nonempty)
          have ends : continuesAfterBlock .block (next :: right ++ rest).head? = false := ends
          refine ⟨opening :: (inner ++ [closing]), next, right,
            cutFrom ((opening :: (inner ++ [closing])).reverse ++ before) .initial
              (next :: right ++ rest), by simp, ?_⟩
          rw [parts, cutFrom_append, through_group_of_ends opens within closes goesOn rfl ends]
          rfl
      | true =>
          rw [here, Bool.true_and] at broken
          have stays : bracket = .curly → Kind.block.endsWithBlock = true →
              continuesAfterBlock .block (tail ++ rest).head? = true := by
            rintro rfl -
            cases tail with
            | nil => cases broken
            | cons next tail => simpa [goesOnBefore] using here
          obtain ⟨taken, next, right, statements, rfl, cut⟩ :=
            ih single.2 oneLine.2 broken (closing :: (inner.reverse ++ opening :: reversed))
              ((opening :: (inner ++ [closing])).reverse ++ before)
              (bracket == .round && opensHeader before)
          refine ⟨opening :: (inner ++ closing :: taken), next, right, statements, by simp, ?_⟩
          rw [parts, cutFrom_append, through_group opens within closes goesOn stays, cut]
          simp

end Block

end Cutter

/-- A source that is one control statement is wrapped without a change to its text. -/
theorem wrap?_of_split {source : List Char} {tokens : List Token}
    (scanned : tokenize source = tokens) (one : split tokens = [⟨.block, tokens, none⟩])
    (suspends : Suspension.suspends tokens = true) :
    AsyncWrap.wrap? source =
      some ("(async () => \x7b ".toList ++ source ++ "\n \x7d)()".toList) := by
  have spelled : gapOf tokens ++ textOf tokens ++ (Scan.ofSource source).trailing = source := by
    rw [gapOf_append_textOf, ← scanned]
    exact Scan.source_ofSource source
  have same : (Scan.ofSource source).tokens = tokens := scanned
  have wrapped : AsyncWrap.wrap? source = some ("(async () => \x7b ".toList ++
      (gapOf tokens ++ textOf tokens ++ (Scan.ofSource source).trailing) ++
        "\n \x7d)()".toList) := by
    simp [AsyncWrap.wrap?, AsyncWrap.wrap, same, suspends, one, AsyncWrap.hoisted,
      AsyncWrap.declaredNames, AsyncWrap.hoistedList, AsyncWrap.renderAll,
      AsyncWrap.renderWithGap, AsyncWrap.render, AsyncWrap.terminator]
  rw [wrapped, spelled]

/-- The tokens of `if (...) x = ...`, or of the same with `while` or `for`: outside brackets
the value holds no semicolon and no line break before a token. -/
structure UnbracedControl where
  word : Token
  opening : Token
  condition : List Token
  closing : Token
  target : Token
  assign : Token
  value : List Token
  isHeader : word.isWordIn ["if", "while", "for"] = true
  opens : opening.opens? = some .round
  nestedCondition : WellNested condition
  closes : closing.closes? = some .round
  isTarget : target.isIdentifier = true
  isAssign : assign.isPunctuator "=" = true
  nestedValue : WellNested value
  single : ∀ token ∈ outside value, token.isPunctuator ";" = false
  oneLine : ∀ token ∈ outside value, token.startsLine = false

namespace UnbracedControl

variable (control : UnbracedControl)

/-- The statement up to the value that it assigns. -/
def lead : List Token :=
  [control.word] ++ (control.opening :: (control.condition ++ [control.closing])) ++
    [control.target, control.assign]

def tokens : List Token :=
  control.lead ++ control.value

theorem kind_word : control.word.kind = .identifier := by
  have isHeader := control.isHeader
  simp only [isWordIn, Bool.and_eq_true, beq_iff_eq] at isHeader
  exact isHeader.1

theorem text_word :
    control.word.text ∈ ["if".toList, "while".toList, "for".toList] := by
  have isHeader := control.isHeader
  simp only [isWordIn, Bool.and_eq_true, List.any_cons, List.any_nil, Bool.or_false,
    Bool.or_eq_true, beq_iff_eq] at isHeader
  simpa only [List.mem_cons, List.not_mem_nil, or_false] using isHeader.2

theorem kindOf_word (rest : List Token) : kindOf control.word rest = .block := by
  have kind := control.kind_word
  have text := control.text_word
  simp only [List.mem_cons, List.not_mem_nil, or_false] at text
  rcases text with text | text | text <;>
    simp [kindOf, kindOfWord, opensWith, opens?, isIdentifier, isWordIn, isWord, kind, text,
      blockWords]

theorem opensHeader_word (before : List Token) :
    opensHeader (control.word :: before) = true := by
  have text := control.text_word
  simp only [List.mem_cons, List.not_mem_nil, or_false] at text
  rcases text with text | text | text <;>
    simp [opensHeader, isWordIn, control.kind_word, text, headerWords]

/-- Up to its value a control statement goes on: its header ends nothing, nor does what it
assigns to. -/
theorem through_lead (rest : List Token) :
    Cutter.initial.through [] control.lead rest =
      ([], ⟨some ⟨.block, control.lead.reverse⟩, 0, false, false⟩) := by
  have targetKind : control.target.kind = .identifier := by
    simpa [isIdentifier] using control.isTarget
  obtain ⟨assignKind, assignText⟩ := isPunctuator_iff.1 control.isAssign
  obtain ⟨assignOpens, assignCloses⟩ := plain_of_isPunctuator (by simp) control.isAssign
  have begun (rest : List Token) : Cutter.initial.advance [] control.word rest =
      ([], ⟨some ⟨.block, [control.word]⟩, 0, false, false⟩) := by
    simp [Cutter.initial, Cutter.advance, Cutter.continued?, Cutter.ended?, Cutter.begin,
      Cutter.add, control.kindOf_word, control.kind_word, isPunctuator, opens?, closes?,
      Draft.push]
  have assigned : continuesExpression control.assign = true := by
    simp [continuesExpression, assignKind, isPunctuatorIn, assignText]
  obtain ⟨targetOpens, targetCloses⟩ := plain_of_isIdentifier control.isTarget
  simp only [lead, Cutter.through_append, Cutter.through_singleton, begun,
    List.reverse_singleton, List.append_nil]
  rw [Cutter.through_group control.opens control.nestedCondition control.closes (by
    simp [Cutter.endsBefore, breaksBetween_of_opens control.opens]) (by rintro ⟨⟩)]
  simp only [Cutter.through, control.opensHeader_word, BEq.rfl, Bool.true_and]
  rw [Cutter.advance_plain targetOpens targetCloses (by simp [isPunctuator, targetKind])
      (by simp [Cutter.endsBefore]),
    Cutter.advance_plain assignOpens assignCloses (by simp [isPunctuator, assignText])
      (by simp [Cutter.endsBefore, breaksBetween, assigned])]
  simp

/-- What follows the lead of a control statement is cut as more of it. -/
theorem split_append (following : List Token) :
    split (control.tokens ++ following) =
      cutFrom control.lead.reverse ⟨some ⟨.block, control.lead.reverse⟩, 0, false, false⟩
        (control.value ++ following) := by
  rw [split, tokens, List.append_assoc, cutFrom_append, control.through_lead]
  simp

/-- A statement whose value is whole goes on after it, or ends with its last bracket. -/
theorem split_append_cases (whole : unbroken control.value = true) (following : List Token) :
    (∃ header, split (control.tokens ++ following) =
        cutFrom control.tokens.reverse
          ⟨some ⟨.block, control.tokens.reverse⟩, 0, false, header⟩ following) ∨
      split (control.tokens ++ following) =
        ⟨.block, control.tokens, none⟩ ::
          cutFrom control.tokens.reverse .initial following := by
  rw [split_append, cutFrom_append]
  refine (Cutter.through_of_unbroken control.nestedValue control.single control.oneLine whole
    control.lead.reverse control.lead.reverse following false).imp ?_ ?_
  · rintro ⟨header, reads⟩
    exact ⟨header, by simp [reads, tokens]⟩
  · intro reads
    simp [reads, tokens]

theorem exists_split_append_of_unbroken (whole : unbroken control.value = true)
    (following : List Token) :
    ∃ more semicolon statements, split (control.tokens ++ following) =
      ⟨.block, control.tokens ++ more, semicolon⟩ :: statements := by
  rcases control.split_append_cases whole following with ⟨header, cut⟩ | cut
  · obtain ⟨more, semicolon, statements, first⟩ :=
      @exists_cutFrom_cons ⟨some ⟨.block, control.tokens.reverse⟩, 0, false, header⟩ _ rfl
        control.tokens.reverse following
    exact ⟨more, semicolon, statements, by rw [cut, first, List.reverse_reverse]⟩
  · exact ⟨[], none, _, by rw [cut, List.append_nil]⟩

theorem split_tokens_of_unbroken (whole : unbroken control.value = true) :
    split control.tokens = [⟨.block, control.tokens, none⟩] := by
  have cases := control.split_append_cases whole []
  rw [List.append_nil] at cases
  rcases cases with ⟨header, cut⟩ | cut
  · rw [cut]
    simp [cutFrom, Draft.close]
  · rw [cut]
    rfl

/-- A curly bracket that closes before more of the value ends the statement there. -/
theorem exists_split_append_of_broken (broken : unbroken control.value = false)
    (following : List Token) :
    ∃ taken statements, taken.length < control.tokens.length ∧
      split (control.tokens ++ following) = ⟨.block, taken, none⟩ :: statements := by
  obtain ⟨taken, next, right, statements, parts, cut⟩ :=
    Cutter.exists_cutFrom_of_broken control.nestedValue control.single control.oneLine broken
      control.lead.reverse control.lead.reverse following false
  refine ⟨control.lead ++ taken, statements, ?_, ?_⟩
  · rw [tokens, parts]
    simp
  · rw [split_append, cut, List.reverse_reverse]

/-- A control statement without braces is one statement, whatever follows it and with its
text kept, exactly if no curly bracket of its value closes outside all others before more of
the value, words with which such a statement goes on aside. -/
theorem split_tokens_iff :
    (split control.tokens = [⟨.block, control.tokens, none⟩] ↔ unbroken control.value = true) ∧
      (∀ following, (∃ more semicolon statements, split (control.tokens ++ following) =
          ⟨.block, control.tokens ++ more, semicolon⟩ :: statements) ↔
        unbroken control.value = true) ∧
      (unbroken control.value = true → ∀ source, tokenize source = control.tokens →
        Suspension.suspends control.tokens = true →
          AsyncWrap.wrap? source =
            some ("(async () => \x7b ".toList ++ source ++ "\n \x7d)()".toList)) := by
  have broken (following : List Token)
      (one : ∃ more semicolon statements, split (control.tokens ++ following) =
        ⟨.block, control.tokens ++ more, semicolon⟩ :: statements) :
      unbroken control.value = true := by
    by_contra isBroken
    obtain ⟨more, semicolon, statements, whole⟩ := one
    obtain ⟨taken, others, shorter, cut⟩ :=
      control.exists_split_append_of_broken (Bool.eq_false_iff.2 isBroken) following
    rw [cut] at whole
    obtain ⟨⟨-, rfl, -⟩, -⟩ := whole
    rw [List.length_append] at shorter
    omega
  refine ⟨⟨fun one => broken [] ⟨[], none, [], ?_⟩, control.split_tokens_of_unbroken⟩,
    fun following => ⟨broken following, fun whole =>
      control.exists_split_append_of_unbroken whole following⟩,
    fun whole source scanned suspends =>
      wrap?_of_split scanned (control.split_tokens_of_unbroken whole) suspends⟩
  simpa using one

/-- Every such value can be assigned in a statement `if (a) x = ...`. -/
theorem exists_ifAssigns {value : List Token} (nestedValue : WellNested value)
    (single : ∀ token ∈ outside value, token.isPunctuator ";" = false)
    (oneLine : ∀ token ∈ outside value, token.startsLine = false) :
    ∃ control : UnbracedControl, control.value = value ∧
      control.tokens =
        [⟨.identifier, [], "if".toList⟩, ⟨.punctuator, [' '], ['(']⟩, ⟨.identifier, [], ['a']⟩,
          ⟨.punctuator, [], [')']⟩, ⟨.identifier, [' '], ['x']⟩, ⟨.punctuator, [' '], ['=']⟩] ++
        value := by
  let control : UnbracedControl :=
    { word := ⟨.identifier, [], "if".toList⟩
      opening := ⟨.punctuator, [' '], ['(']⟩
      condition := [⟨.identifier, [], ['a']⟩]
      closing := ⟨.punctuator, [], [')']⟩
      target := ⟨.identifier, [' '], ['x']⟩
      assign := ⟨.punctuator, [' '], ['=']⟩
      value := value
      isHeader := by decide
      opens := by decide
      nestedCondition := wellNested_of_plain (by decide)
      closes := by decide
      isTarget := by decide
      isAssign := by decide
      nestedValue := nestedValue
      single := single
      oneLine := oneLine }
  exact ⟨control, rfl, rfl⟩

/-- The statement `if (a) x = [{k: await c}.k]`, whose curly bracket closes inside another. -/
theorem split_tokens_iff_inside :
    let source := "if (a) x = [\x7bk: await c\x7d.k]".toList
    ∃ control : UnbracedControl, tokenize source = control.tokens ∧
      unbroken control.value = true ∧
      split control.tokens = [⟨.block, control.tokens, none⟩] ∧
      AsyncWrap.wrap? source =
        some ("(async () => \x7b ".toList ++ source ++ "\n \x7d)()".toList) := by
  intro source
  let value : List Token :=
    [⟨.punctuator, [' '], ['[']⟩, ⟨.punctuator, [], ['\x7b']⟩, ⟨.identifier, [], ['k']⟩,
      ⟨.punctuator, [], [':']⟩, ⟨.identifier, [' '], "await".toList⟩,
      ⟨.identifier, [' '], ['c']⟩, ⟨.punctuator, [], ['\x7d']⟩, ⟨.punctuator, [], ['.']⟩,
      ⟨.identifier, [], ['k']⟩, ⟨.punctuator, [], [']']⟩]
  obtain ⟨control, isValue, tokens⟩ := @exists_ifAssigns value
    ((wellNested_iff _).2 (by decide)) (by decide) (by decide)
  have scanned : Scan.within 17 none source = some ⟨control.tokens, []⟩ := by
    rw [tokens]
    decide
  have read : tokenize source = control.tokens :=
    congrArg Scan.tokens (Scan.ofSource_of_within scanned)
  have whole : unbroken control.value = true := by
    rw [isValue]
    decide
  have suspends : Suspension.suspends control.tokens = true := by
    rw [Suspension.suspends_eq_found, tokens]
    decide
  exact ⟨control, read, whole, control.split_tokens_iff.1.2 whole,
    control.split_tokens_iff.2.2 whole source read suspends⟩

/-- The statement `if (a) x = {k: await c}.k` ends after the object, and what is left of it is
returned. -/
theorem split_tokens_ne :
    let source := "if (a) x = \x7bk: await c\x7d.k".toList
    ∃ control : UnbracedControl, tokenize source = control.tokens ∧
      control.value ≠ [] ∧ (∀ token ∈ control.value, token.startsLine = false) ∧
      split control.tokens ≠ [⟨.block, control.tokens, none⟩] ∧
      AsyncWrap.wrap? source =
        some "(async () => \x7b if (a) x = \x7bk: await c\x7dreturn (.k);\n \x7d)()".toList := by
  intro source
  let value : List Token :=
    [⟨.punctuator, [' '], ['\x7b']⟩, ⟨.identifier, [], ['k']⟩, ⟨.punctuator, [], [':']⟩,
      ⟨.identifier, [' '], "await".toList⟩, ⟨.identifier, [' '], ['c']⟩,
      ⟨.punctuator, [], ['\x7d']⟩, ⟨.punctuator, [], ['.']⟩, ⟨.identifier, [], ['k']⟩]
  obtain ⟨control, isValue, tokens⟩ := @exists_ifAssigns value
    ((wellNested_iff _).2 (by decide)) (by decide) (by decide)
  have scanned : Scan.within 15 none source = some ⟨control.tokens, []⟩ := by
    rw [tokens]
    decide
  refine ⟨control, congrArg Scan.tokens (Scan.ofSource_of_within scanned), ?_, ?_, ?_, ?_⟩
  · rw [isValue]
    decide
  · rw [isValue]
    decide
  · rw [tokens]
    decide
  · refine AsyncWrap.wrap?_of_within scanned ?_ ?_
    · rw [tokens]
      decide
    · rw [tokens]
      decide

end UnbracedControl

end ScriptConsole.Statement

import ScriptConsole.Proofs.Statement.Steps
import ScriptConsole.Proofs.Token.Scanning

/-!
# Keywords as member names

A name after a dot is the name of a member, whatever it is spelled like.  The cut
of statements does not look at the dot: it takes a member name for the keyword
of a header or for a word that ends no statement.  Here is exactly where two
member names are told apart by it.
-/

namespace ScriptConsole

/-- Whether a token marks the identifier after it as the name of a member. -/
def Token.marksMember (token : Token) : Bool :=
  token.isPunctuatorIn [".", "?."]

namespace Statement

open Token

/-- Whether the line break before `next` ends a statement of the given kind, after a
token that may end one. -/
def Kind.breaksOff (kind : Kind) (next : Token) : Bool :=
  next.startsLine && !(kind == .doWhile && next.isWord "while") && !continuesExpression next

namespace Cutter

theorem endsBefore_eq (cutter : Cutter) (previous : Option Token) (token : Token)
    (draft : Draft) :
    cutter.endsBefore previous token draft =
      (cutter.depth == 0 && !cutter.afterHeader && draft.kind.breaksOff token &&
        previous.any canEndWith) := by
  unfold endsBefore Kind.breaksOff
  cases previous <;> simp only [Option.any_none, Option.any_some, breaksBetween] <;> grind

/-- Whether a header that is open, though `cutter` takes none for open, is closed
just before a line break that would end the statement. -/
def headerBreaks (cutter : Cutter) (before : List Token) : List Token → Bool
  | [] => false
  | token :: rest =>
      let next := (cutter.advance before token rest).2
      if token.closesWith .round && cutter.depth ≤ 1 then
        rest.head?.any fun after => next.draft.any (·.kind.breaksOff after)
      else !next.headerOpen && headerBreaks next (token :: before) rest

def opened (cutter : Cutter) : Cutter :=
  { cutter with headerOpen := true }

def shut (cutter : Cutter) : Cutter :=
  { cutter with headerOpen := false }

@[simp] theorem opened_draft (cutter : Cutter) : cutter.opened.draft = cutter.draft := rfl

@[simp] theorem opened_depth (cutter : Cutter) : cutter.opened.depth = cutter.depth := rfl

@[simp] theorem opened_headerOpen (cutter : Cutter) : cutter.opened.headerOpen = true := rfl

/-- Where a cut tells the tokens `before` the rest from the tokens `before'`: one of
them may end a statement before a line break and the other may not, or one of them
makes a round bracket the header of a control statement. -/
inductive ToldApart (cutter : Cutter) (before before' tokens : List Token) : Prop where
  | lineBreak {draft : Draft} {next : Token} (begun : cutter.draft = some draft)
      (outside : cutter.depth = 0) (noHeader : cutter.afterHeader = false)
      (head : tokens.head? = some next)
      (ends : before.head?.any canEndWith ≠ before'.head?.any canEndWith)
      (breaks : draft.kind.breaksOff next = true)
  | header (lead : List Token) {bracket : Token} {rest : List Token}
      (split : tokens = lead ++ bracket :: rest)
      (round : bracket.opensWith .round = true)
      (outside : (cutter.through before lead (bracket :: rest)).2.depth = 0)
      (noneOpen : (cutter.through before lead (bracket :: rest)).2.headerOpen = false)
      (opens : opensHeader (lead.reverse ++ before) ≠ opensHeader (lead.reverse ++ before'))
      (breaks : (cutter.through before (lead ++ [bracket]) rest).2.shut.headerBreaks
        (bracket :: (lead.reverse ++ before)) rest = true)

/-- A header that is open matters to a token only if the token closes it. -/
theorem advance_opened {cutter : Cutter} {token : Token}
    (stays : ¬(token.closesWith .round = true ∧ cutter.depth ≤ 1))
    (before rest : List Token) :
    cutter.opened.advance before token rest =
      ((cutter.advance before token rest).1, (cutter.advance before token rest).2.opened) := by
  have add : ∀ next draft, cutter.opened.add before token next draft =
      ((cutter.add before token next draft).1,
        (cutter.add before token next draft).2.opened) := by
    intro next draft
    unfold Cutter.add
    simp only [opened_depth, opened_headerOpen]
    cases opens : token.opens? with
    | some bracket => rfl
    | none =>
        cases closes : token.closes? with
        | some bracket =>
            have notRound : cutter.depth - 1 = 0 → bracket ≠ .round := by
              rintro outside rfl
              exact stays ⟨by simp [closesWith, closes], by omega⟩
            by_cases outside : cutter.depth - 1 = 0
            · have other := beq_eq_false_iff_ne.2 (notRound outside)
              simp only [outside, if_true, other, Bool.false_and]
              split <;> rfl
            · simp only [outside, if_false]
              rfl
        | none =>
            by_cases ends : (cutter.depth == 0 && token.isPunctuator ";" &&
                !(next.any (·.isWord "else"))) = true
            · simp only [ends, if_true]
              rfl
            · simp only [ends]
              rfl
  have begin : cutter.opened.begin before token rest =
      ((cutter.begin before token rest).1, (cutter.begin before token rest).2.opened) := by
    unfold Cutter.begin
    rw [add]
    simp only [opened_depth, opened_headerOpen]
    by_cases empty : (cutter.depth == 0 && token.isPunctuator ";") = true
    · simp only [empty, if_true]
      rfl
    · simp only [empty]
      rfl
  have continued : cutter.opened.continued? before.head? token =
      cutter.continued? before.head? token := rfl
  have ended : cutter.opened.ended? before.head? token =
      cutter.ended? before.head? token := rfl
  unfold advance
  rw [continued, ended, begin]
  cases cutter.continued? before.head? token with
  | some draft => simp only [add]
  | none => rfl

/-- A round bracket that closes outside of all others closes the header that is
open. -/
theorem advance_of_closes {cutter : Cutter} {token : Token}
    (closes : token.closesWith .round = true) (outside : cutter.depth ≤ 1)
    (before rest : List Token) :
    ∃ statements draft,
      cutter.advance before token rest =
        (statements, ⟨some draft, 0, false, cutter.headerOpen⟩) ∧
      cutter.opened.advance before token rest = (statements, ⟨some draft, 0, false, true⟩) := by
  have closes? : token.closes? = some .round := by simpa [closesWith] using closes
  have opens? := opens?_eq_none_of_closes? closes?
  have zero : cutter.depth - 1 = 0 := by omega
  have notSemicolon : token.isPunctuator ";" = false := by
    obtain ⟨-, text⟩ := closes?_eq_some_iff.1 closes?
    simp [isPunctuator, text, Bracket.closing]
  have add : ∀ (open' : Cutter) (next : Option Token) (draft : Draft),
      open'.depth = cutter.depth → open'.add before token next draft =
        (none, ⟨some (draft.push token), 0, false, open'.headerOpen⟩) := by
    intro open' next draft depth
    simp [Cutter.add, opens?, closes?, depth, zero]
  have continued : cutter.opened.continued? before.head? token =
      cutter.continued? before.head? token := rfl
  have ended : cutter.opened.ended? before.head? token =
      cutter.ended? before.head? token := rfl
  unfold advance
  rw [continued, ended]
  cases cutter.continued? before.head? token with
  | some draft =>
      refine ⟨[], draft.push token, ?_, ?_⟩
      · simp [add cutter _ _ rfl]
      · simp [add cutter.opened _ _ rfl]
  | none =>
      refine ⟨(cutter.ended? before.head? token).toList,
        (⟨kindOf token rest, []⟩ : Draft).push token, ?_, ?_⟩
      · simp [Cutter.begin, notSemicolon, add cutter _ _ rfl]
      · simp [Cutter.begin, notSemicolon, add cutter.opened _ _ rfl]

theorem advance_of_opens {cutter : Cutter} {token : Token}
    (opens : token.opensWith .round = true) (rest : List Token) :
    ∃ draft, ∀ before, cutter.advance before token rest =
      ([], ⟨some draft, cutter.depth + 1,
        cutter.headerOpen || (cutter.depth == 0 && opensHeader before), false⟩) := by
  have opens? : token.opens? = some .round := by simpa [opensWith] using opens
  obtain ⟨kind, text⟩ := opens?_eq_some_iff.1 opens?
  have notSemicolon : token.isPunctuator ";" = false := by
    simp [isPunctuator, text, Bracket.opening]
  have continues : continuesExpression token = true := by
    simp [continuesExpression, kind, isPunctuatorIn, text, Bracket.opening]
  have stays : ∀ before draft, cutter.endsBefore before token draft = false := by
    intro before draft
    simp [endsBefore_eq, Kind.breaksOff, continues]
  refine ⟨(cutter.draft.getD ⟨kindOf token rest, []⟩).push token, fun before => ?_⟩
  unfold advance continued? ended?
  cases cutter.draft with
  | some draft => simp [stays, add, opens?]
  | none => simp [Cutter.begin, notSemicolon, add, opens?]

/-- Having just closed a header matters to a token only before a line break. -/
theorem advance_afterHeader {draft : Draft} {token : Token}
    (stays : draft.kind.breaksOff token = false) (before rest : List Token) :
    (⟨some draft, 0, false, true⟩ : Cutter).advance before token rest =
      (⟨some draft, 0, false, false⟩ : Cutter).advance before token rest := by
  have goesOn : ∀ afterHeader,
      (⟨some draft, 0, false, afterHeader⟩ : Cutter).continued? before.head? token =
        some draft := by
    intro afterHeader
    simp [continued?, endsBefore_eq, stays]
  simp only [advance, goesOn]
  rfl

end Cutter

/-- Whether a header has just been closed shows exactly before a line break. -/
theorem outlines_afterHeader_iff {draft : Draft} {before : List Token}
    (ends : before.head?.any canEndWith = true) (tokens : List Token) :
    (cutFrom before ⟨some draft, 0, false, true⟩ tokens).map outline =
        (cutFrom before ⟨some draft, 0, false, false⟩ tokens).map outline ↔
      tokens.head?.any draft.kind.breaksOff = false := by
  cases tokens with
  | nil => simp [cutFrom]
  | cons token rest =>
      rw [List.head?_cons, Option.any_some]
      cases breaks : draft.kind.breaksOff token with
      | false =>
          simp only [iff_true]
          rw [cutFrom_cons, cutFrom_cons, Cutter.advance_afterHeader breaks]
      | true =>
          simp only [Bool.true_eq_false, iff_false]
          refine outlines_ne_of_ended draft draft ?_ ?_ rfl rest
          · simp [Cutter.continued?, Cutter.endsBefore_eq]
          · simp [Cutter.ended?, Cutter.endsBefore_eq, breaks, ends]

/-- Whether a header is open shows exactly where it is closed before a line break. -/
theorem outlines_opened_iff {cutter : Cutter} (shut : cutter.headerOpen = false)
    (before tokens : List Token) :
    (cutFrom before cutter.opened tokens).map outline =
        (cutFrom before cutter tokens).map outline ↔
      cutter.headerBreaks before tokens = false := by
  induction tokens generalizing before cutter with
  | nil => simp [cutFrom, Cutter.headerBreaks]
  | cons token rest ih =>
      rw [Cutter.headerBreaks]
      by_cases closes : token.closesWith .round = true ∧ cutter.depth ≤ 1
      · obtain ⟨statements, draft, plain, opened⟩ :=
          Cutter.advance_of_closes closes.1 closes.2 before rest
        have canEnd : canEndWith token = true := by
          have : token.closes? = some .round := by simpa [closesWith] using closes.1
          obtain ⟨kind, text⟩ := closes?_eq_some_iff.1 this
          simp [canEndWith, kind, isPunctuatorIn, text, Bracket.closing]
        rw [cutFrom_cons, cutFrom_cons, plain, opened, shut, List.map_append, List.map_append,
          List.append_cancel_left_eq, outlines_afterHeader_iff (by simpa using canEnd)]
        simp [closes.1, closes.2]
      · have notCloses : (token.closesWith .round && decide (cutter.depth ≤ 1)) = false := by
          simpa using closes
        rw [cutFrom_cons, cutFrom_cons, Cutter.advance_opened closes, List.map_append,
          List.map_append, List.append_cancel_left_eq]
        simp only [notCloses, Bool.false_eq_true, if_false]
        cases next : (cutter.advance before token rest).2.headerOpen with
        | true =>
            have same : (cutter.advance before token rest).2.opened =
                (cutter.advance before token rest).2 := by
              rw [Cutter.opened, ← next]
            simp [same]
        | false => simpa using ih next (token :: before)

/-- After a bracket nothing is told apart by what stands before it. -/
theorem Cutter.not_toldApart_of_opens {cutter : Cutter} {token : Token}
    (opens : token.opensWith .round = true) (before before' tokens : List Token) :
    ¬cutter.ToldApart (token :: before) (token :: before') tokens := by
  have opens? : token.opens? = some .round := by simpa [opensWith] using opens
  have kind := (opens?_eq_some_iff.1 opens?).1
  have noWord : ∀ word, token.isWord word = false := by
    intro word
    rw [isWord, kind]
    rfl
  rintro (⟨begun, outside, noHeader, head, ends, breaks⟩ |
    @⟨lead, bracket, rest, split, round, outside, noneOpen, header, breaks⟩)
  · exact ends rfl
  · rcases List.eq_nil_or_concat lead with rfl | ⟨lead, last, rfl⟩
    · simp [opensHeader, noWord] at header
    · rcases List.eq_nil_or_concat lead with rfl | ⟨lead, second, rfl⟩ <;>
        simp [opensHeader] at header

/-- Cuts differ where a statement may end before a line break in one of them only. -/
theorem outlines_ne_of_lineBreak {left right : Cutter} {before before' : List Token}
    {draft : Draft} {token : Token} (alike : left.Alike right)
    (begun : left.draft = some draft) (outside : left.depth = 0)
    (noHeader : left.afterHeader = false)
    (ends : before.head?.any canEndWith ≠ before'.head?.any canEndWith)
    (breaks : draft.kind.breaksOff token = true) (rest : List Token) :
    (cutFrom before left (token :: rest)).map outline ≠
      (cutFrom before' right (token :: rest)).map outline := by
  obtain ⟨draft', begun', same⟩ : ∃ draft', right.draft = some draft' ∧
      draft.outline = draft'.outline := by
    have drafts := alike.draft
    rw [begun] at drafts
    cases hr : right.draft with
    | none => simp [hr] at drafts
    | some draft' => exact ⟨draft', rfl, by simpa [hr] using drafts⟩
  have kind : draft.kind = draft'.kind := congrArg Outline.kind same
  have breaks' : draft'.kind.breaksOff token = true := kind ▸ breaks
  have outside' := alike.depth.symm.trans outside
  have noHeader' := alike.afterHeader.symm.trans noHeader
  cases canEnd : before.head?.any canEndWith with
  | false =>
      have canEnd' : before'.head?.any canEndWith = true := by simpa [canEnd] using ends
      refine outlines_ne_of_ended draft draft' ?_ ?_ same rest
      · simp [Cutter.continued?, Cutter.endsBefore_eq, begun, canEnd]
      · simp [Cutter.ended?, Cutter.endsBefore_eq, begun', outside', noHeader', breaks', canEnd']
  | true =>
      have canEnd' : before'.head?.any canEndWith = false := by simpa [canEnd] using ends
      refine (outlines_ne_of_ended draft' draft ?_ ?_ same.symm
        rest).symm
      · simp [Cutter.continued?, Cutter.endsBefore_eq, begun', canEnd']
      · simp [Cutter.ended?, Cutter.endsBefore_eq, begun, outside, noHeader, breaks, canEnd]

/-- A token that is no bracket told apart leaves what is told apart further on. -/
theorem Cutter.toldApart_cons_iff {cutter : Cutter} {before before' : List Token}
    {token : Token} {rest : List Token}
    (noBreak : ¬∃ draft, cutter.draft = some draft ∧ cutter.depth = 0 ∧
      cutter.afterHeader = false ∧
      before.head?.any canEndWith ≠ before'.head?.any canEndWith ∧
      draft.kind.breaksOff token = true)
    (noHeader : token.opensWith .round = true → cutter.depth = 0 →
      cutter.headerOpen = false → opensHeader before = opensHeader before') :
    cutter.ToldApart before before' (token :: rest) ↔
      (cutter.advance before token rest).2.ToldApart (token :: before) (token :: before')
        rest := by
  constructor
  · rintro (⟨begun, outside, after, head, ends, breaks⟩ |
      @⟨lead, bracket, rest', split, round, outside, noneOpen, opens, breaks⟩)
    · rw [List.head?_cons, Option.some.injEq] at head
      exact absurd ⟨_, begun, outside, after, ends, head ▸ breaks⟩ noBreak
    · cases lead with
      | nil =>
          obtain ⟨rfl, rfl⟩ := List.cons.inj split
          exact absurd (noHeader round outside noneOpen) opens
      | cons first lead =>
          obtain ⟨rfl, rfl⟩ := List.cons.inj split
          refine .header lead rfl round outside noneOpen ?_ ?_
          · simpa using opens
          · simpa [Cutter.through] using breaks
  · rintro (⟨begun, outside, after, head, ends, breaks⟩ |
      @⟨lead, bracket, rest', split, round, outside, noneOpen, opens, breaks⟩)
    · exact absurd rfl ends
    · subst split
      refine .header (token :: lead) rfl round outside noneOpen ?_ ?_
      · simpa using opens
      · simpa [Cutter.through] using breaks

/-- A round bracket that is told apart is all that is told apart from there on. -/
theorem Cutter.toldApart_of_opens_iff {cutter : Cutter} {before before' : List Token}
    {token : Token} {rest : List Token}
    (noBreak : ¬∃ draft, cutter.draft = some draft ∧ cutter.depth = 0 ∧
      cutter.afterHeader = false ∧
      before.head?.any canEndWith ≠ before'.head?.any canEndWith ∧
      draft.kind.breaksOff token = true)
    (round : token.opensWith .round = true) (outside : cutter.depth = 0)
    (noneOpen : cutter.headerOpen = false)
    (opens : opensHeader before ≠ opensHeader before') :
    cutter.ToldApart before before' (token :: rest) ↔
      (cutter.advance before token rest).2.shut.headerBreaks (token :: before) rest = true := by
  constructor
  · rintro (⟨begun, outside, after, head, ends, breaks⟩ |
      @⟨lead, bracket, rest', split, round', outside', noneOpen', opens', breaks⟩)
    · rw [List.head?_cons, Option.some.injEq] at head
      exact absurd ⟨_, begun, outside, after, ends, head ▸ breaks⟩ noBreak
    · cases lead with
      | nil =>
          obtain ⟨rfl, rfl⟩ := List.cons.inj split
          exact breaks
      | cons first lead =>
          obtain ⟨rfl, rfl⟩ := List.cons.inj split
          refine absurd ?_ ((cutter.advance before token (lead ++ bracket :: rest')).2
            |>.not_toldApart_of_opens round before before' (lead ++ bracket :: rest'))
          refine .header lead rfl round' outside' noneOpen' ?_ ?_
          · simpa using opens'
          · simpa [Cutter.through] using breaks
  · exact fun breaks => .header [] rfl round outside noneOpen opens breaks

/-- A round bracket that is a header's in one cut only shows exactly if that header
closes before a line break. -/
theorem outlines_header_iff {left right : Cutter} {before before' : List Token}
    {token : Token} (alike : left.Alike right) (round : token.opensWith .round = true)
    (outside : left.depth = 0) (noneOpen : left.headerOpen = false)
    (opens : opensHeader before ≠ opensHeader before') {rest : List Token}
    (further : ∀ {left right : Cutter}, left.Alike right →
      (cutFrom (token :: before) left rest).map outline =
        (cutFrom (token :: before') right rest).map outline) :
    (cutFrom before left (token :: rest)).map outline =
        (cutFrom before' right (token :: rest)).map outline ↔
      (left.advance before token rest).2.shut.headerBreaks (token :: before) rest = false := by
  obtain ⟨draft, hleft⟩ := left.advance_of_opens round rest
  obtain ⟨draft', hright⟩ := right.advance_of_opens round rest
  have drafts : some draft.outline = some draft'.outline := by
    have ends : ∀ draft, left.draft = some draft →
        left.endsBefore before.head? token draft = left.endsBefore before.head? token draft :=
      fun _ _ => rfl
    have := (Cutter.advance_congr before before alike ends
      (fun _ _ _ => rfl) rest).2.draft
    rwa [hleft, hright] at this
  have same : ∀ open', (⟨some draft, 1, open', false⟩ : Cutter).Alike
      ⟨some draft', 1, open', false⟩ := fun _ => ⟨drafts, rfl, rfl, rfl⟩
  have noneOpen' : (⟨some draft, 1, false, false⟩ : Cutter).headerOpen = false := rfl
  have matters := outlines_opened_iff noneOpen' (token :: before) rest
  rw [cutFrom_cons, cutFrom_cons, hleft, hright, ← alike.depth, ← alike.headerOpen, outside,
    noneOpen]
  simp only [beq_self_eq_true, Bool.true_and, Bool.false_or, List.nil_append, Nat.zero_add]
  cases isHeader : opensHeader before with
  | true =>
      have isHeader' : opensHeader before' = false := by simpa [isHeader] using opens
      rw [isHeader', ← further (same false)]
      exact matters
  | false =>
      have isHeader' : opensHeader before' = true := by simpa [isHeader] using opens
      rw [isHeader', ← further (same true), eq_comm]
      exact matters

/-- Cuts that stand alike cut the same outlines exactly if they tell nothing apart. -/
theorem outlines_cutFrom_iff {left right : Cutter} (alike : left.Alike right)
    (before before' tokens : List Token) :
    (cutFrom before left tokens).map outline = (cutFrom before' right tokens).map outline ↔
      ¬left.ToldApart before before' tokens := by
  induction tokens generalizing left right before before' with
  | nil =>
      have same : (cutFrom before left []).map outline =
          (cutFrom before' right []).map outline := by
        have drafts := alike.draft
        cases hl : left.draft <;> cases hr : right.draft <;>
          simp_all [cutFrom, Draft.outline_close, Draft.outline]
      refine iff_of_true same ?_
      rintro (⟨_, _, _, head, _, _⟩ | ⟨lead, split, _, _, _, _, _⟩)
      · simp at head
      · simp at split
  | cons token rest ih =>
      by_cases broken : ∃ draft, left.draft = some draft ∧ left.depth = 0 ∧
          left.afterHeader = false ∧
          before.head?.any canEndWith ≠ before'.head?.any canEndWith ∧
          draft.kind.breaksOff token = true
      · obtain ⟨draft, begun, outside, noHeader, ends, breaks⟩ := broken
        refine iff_of_false ?_ fun same => same (.lineBreak begun outside noHeader rfl ends breaks)
        exact outlines_ne_of_lineBreak alike begun outside noHeader ends breaks rest
      by_cases headed : token.opensWith .round = true ∧ left.depth = 0 ∧
          left.headerOpen = false ∧ opensHeader before ≠ opensHeader before'
      · obtain ⟨round, outside, noneOpen, opens⟩ := headed
        rw [outlines_header_iff alike round outside noneOpen opens fun alike =>
          (ih alike _ _).2 (Cutter.not_toldApart_of_opens round _ _ _)]
        rw [Cutter.toldApart_of_opens_iff broken round outside noneOpen opens,
          Bool.not_eq_true]
      · have noHeader : token.opensWith .round = true → left.depth = 0 →
            left.headerOpen = false → opensHeader before = opensHeader before' :=
          fun round outside noneOpen => Decidable.byContradiction fun opens =>
            headed ⟨round, outside, noneOpen, opens⟩
        have ends : ∀ draft, left.draft = some draft →
            left.endsBefore before.head? token draft =
              left.endsBefore before'.head? token draft := by
          intro draft begun
          rw [Cutter.endsBefore_eq, Cutter.endsBefore_eq]
          cases breaks : left.depth == 0 && !left.afterHeader && draft.kind.breaksOff token with
          | false => rfl
          | true =>
              simp only [Bool.and_eq_true, beq_iff_eq, Bool.not_eq_true'] at breaks
              exact Decidable.byContradiction fun ends => broken
                ⟨draft, begun, breaks.1.1, breaks.1.2, by simpa using ends, breaks.2⟩
        obtain ⟨statements, next⟩ := Cutter.advance_congr before before' alike ends noHeader rest
        rw [cutFrom_cons, cutFrom_cons, List.map_append, List.map_append, statements,
          List.append_cancel_left_eq, ih next, Cutter.toldApart_cons_iff broken noHeader]

section Member

variable {mark name : Token}

theorem isPunctuator_of_marksMember (member : mark.marksMember = true) :
    mark.isPunctuator "." = true ∨ mark.isPunctuator "?." = true := by
  simpa [marksMember, isPunctuatorIn, isPunctuator, and_or_left] using member

theorem kind_of_marksMember (member : mark.marksMember = true) :
    mark.kind = .punctuator ∧ mark.opens? = none ∧ mark.closes? = none ∧
      mark.isPunctuator ";" = false ∧ mark.isPunctuator "*" = false ∧
      canEndWith mark = false := by
  rcases isPunctuator_of_marksMember member with h | h <;>
  · obtain ⟨kind, text⟩ := isPunctuator_iff.1 h
    simp [kind, text, opens?, closes?, isPunctuator, canEndWith, isPunctuatorIn,
      Bracket.ofOpening?, Bracket.ofClosing?]

theorem exists_advance_mark (member : mark.marksMember = true) (cutter : Cutter)
    (before : List Token) :
    ∃ statements draft, ∀ rest, cutter.advance before mark rest =
      (statements, ⟨some draft, cutter.depth, cutter.headerOpen, false⟩) := by
  obtain ⟨kind, opens, closes, notSemicolon, -, -⟩ := kind_of_marksMember member
  have expression : ∀ rest, kindOf mark rest = .expression := by
    intro rest
    simp [kindOf, opensWith, opens, isIdentifier, kind]
  unfold Cutter.advance Cutter.begin
  cases cutter.continued? before.head? mark with
  | some draft => exact ⟨[], draft.push mark, by simp [Cutter.add, opens, closes, notSemicolon]⟩
  | none =>
      exact ⟨(cutter.ended? before.head? mark).toList,
        (⟨.expression, []⟩ : Draft).push mark,
        by simp [Cutter.add, opens, closes, notSemicolon, expression]⟩

/-- Up to a mark a run is read without looking at what follows it. -/
theorem exists_through_mark (member : mark.marksMember = true) (cutter : Cutter)
    (before lead : List Token) :
    ∃ statements draft depth headerOpen, ∀ rest,
      cutter.through before (lead ++ [mark]) rest =
        (statements, ⟨some draft, depth, headerOpen, false⟩) := by
  induction lead generalizing cutter before with
  | nil =>
      obtain ⟨statements, draft, h⟩ := exists_advance_mark member cutter before
      exact ⟨statements, draft, cutter.depth, cutter.headerOpen, fun rest => by
        simp [Cutter.through, h]⟩
  | cons token lead ih =>
      obtain ⟨statements, draft, depth, headerOpen, h⟩ :=
        ih (cutter.advance before token (lead ++ [mark])).2 (token :: before)
      refine ⟨(cutter.advance before token (lead ++ [mark])).1 ++ statements, draft, depth,
        headerOpen, fun rest => ?_⟩
      obtain ⟨kind, -, -, -, notAsterisk, -⟩ := kind_of_marksMember member
      have same := Cutter.advance_congr_mark kind notAsterisk cutter before lead rest [] token
      simp [Cutter.through, same, h]

theorem advance_member (member : mark.marksMember = true)
    (identifier : name.isIdentifier = true) (draft : Draft) (depth : Nat)
    (headerOpen : Bool) (before rest : List Token) :
    (⟨some draft, depth, headerOpen, false⟩ : Cutter).advance (mark :: before) name rest =
      ([], ⟨some (draft.push name), depth, headerOpen, false⟩) := by
  obtain ⟨-, -, -, -, -, notEnd⟩ := kind_of_marksMember member
  have kind : name.kind = .identifier := by simpa [isIdentifier] using identifier
  have opens : name.opens? = none := by simp [opens?, kind]
  have closes : name.closes? = none := by simp [closes?, kind]
  have notSemicolon : name.isPunctuator ";" = false := by
    rw [isPunctuator, kind]
    rfl
  simp [Cutter.advance, Cutter.continued?, Cutter.endsBefore_eq, notEnd, Cutter.add, opens,
    closes, notSemicolon]

/-- Whether the cut of `before`, `mark`, `name` and `rest` reads the name as a keyword
where it does not read `other` as one, or the other way about. -/
def ToldApartAsMembers (before : List Token) (mark name other : Token)
    (rest : List Token) : Prop :=
  (Cutter.initial.through [] (before ++ [mark, name]) rest).2.ToldApart
    (name :: mark :: before.reverse) (other :: mark :: before.reverse) rest

/-- Another name for a member changes the statements of a source exactly where the
cut takes one of the two names for a keyword: as the last word before a line break,
or as the keyword of a header that closes before one. -/
theorem outlines_rename_iff (member : mark.marksMember = true)
    (identifier : name.isIdentifier = true) (before rest : List Token) (text : List Char) :
    outlines (before ++ mark :: { name with text := text } :: rest) =
        outlines (before ++ mark :: name :: rest) ↔
      ¬ToldApartAsMembers before mark name { name with text := text } rest := by
  obtain ⟨statements, draft, depth, headerOpen, reach⟩ :=
    exists_through_mark member .initial [] before
  have step : ∀ name : Token, name.isIdentifier = true →
      (split (before ++ mark :: name :: rest) = statements ++
          cutFrom (name :: mark :: before.reverse)
            ⟨some (draft.push name), depth, headerOpen, false⟩ rest) ∧
        (Cutter.initial.through [] (before ++ [mark, name]) rest).2 =
          ⟨some (draft.push name), depth, headerOpen, false⟩ := by
    intro name identifier
    have marked : before ++ mark :: name :: rest = (before ++ [mark]) ++ name :: rest := by simp
    have read := advance_member member identifier draft depth headerOpen before.reverse rest
    constructor
    · rw [split, marked, cutFrom_append, reach, cutFrom_cons]
      simp [read]
    · have named : before ++ [mark, name] = (before ++ [mark]) ++ [name] := by simp
      rw [named, Cutter.through_append, reach]
      simp [Cutter.through, read]
  have cut := step name identifier
  have cut' := step { name with text := text } identifier
  have alike : (⟨some (draft.push name), depth, headerOpen, false⟩ : Cutter).Alike
      ⟨some (draft.push { name with text := text }), depth, headerOpen, false⟩ :=
    ⟨rfl, rfl, rfl, rfl⟩
  rw [outlines, outlines, cut.1, cut'.1, List.map_append, List.map_append,
    List.append_cancel_left_eq, ToldApartAsMembers, cut.2, eq_comm]
  exact outlines_cutFrom_iff alike _ _ rest

/-- Another name for the member of `await p.then(h)` before a line of its own. -/
theorem outlines_rename_iff_then :
    (Token.marksMember ⟨.punctuator, [], ['.']⟩ = true ∧
      Token.isIdentifier ⟨.identifier, [], "then".toList⟩ = true) ∧
      (outlines ([⟨.identifier, [], "await".toList⟩, ⟨.identifier, [' '], ['p']⟩] ++
            ⟨.punctuator, [], ['.']⟩ :: ⟨.identifier, [], "foo".toList⟩ ::
            [⟨.punctuator, [], ['(']⟩, ⟨.identifier, [], ['h']⟩, ⟨.punctuator, [], [')']⟩,
              ⟨.identifier, ['\n'], ['x']⟩]) =
          outlines ([⟨.identifier, [], "await".toList⟩, ⟨.identifier, [' '], ['p']⟩] ++
            ⟨.punctuator, [], ['.']⟩ :: ⟨.identifier, [], "then".toList⟩ ::
            [⟨.punctuator, [], ['(']⟩, ⟨.identifier, [], ['h']⟩, ⟨.punctuator, [], [')']⟩,
              ⟨.identifier, ['\n'], ['x']⟩]) ↔
        ¬ToldApartAsMembers
          [⟨.identifier, [], "await".toList⟩, ⟨.identifier, [' '], ['p']⟩]
          ⟨.punctuator, [], ['.']⟩ ⟨.identifier, [], "then".toList⟩
          ⟨.identifier, [], "foo".toList⟩
          [⟨.punctuator, [], ['(']⟩, ⟨.identifier, [], ['h']⟩, ⟨.punctuator, [], [')']⟩,
            ⟨.identifier, ['\n'], ['x']⟩]) := by
  have member : Token.marksMember ⟨.punctuator, [], ['.']⟩ = true := by decide
  have identifier : Token.isIdentifier ⟨.identifier, [], "then".toList⟩ = true := by decide
  exact ⟨⟨member, identifier⟩, outlines_rename_iff member identifier _ _ _⟩

/-- The member `catch` is read as the keyword of a header: its line goes on where the
line of another member ends. -/
theorem outlines_rename_catch :
    ∃ (before rest : List Token) (mark name : Token),
      mark.marksMember = true ∧ name.isIdentifier = true ∧
      tokenize "await p.catch(h)\nfoo".toList = before ++ mark :: name :: rest ∧
      tokenize "await p.foo(h)\nfoo".toList =
        before ++ mark :: { name with text := "foo".toList } :: rest ∧
      outlines (tokenize "await p.catch(h)\nfoo".toList) = [⟨.expression, 8, false⟩] ∧
      outlines (tokenize "await p.foo(h)\nfoo".toList) =
        [⟨.expression, 7, false⟩, ⟨.expression, 1, false⟩] := by
  let tokens (name : String) : List Token :=
    [⟨.identifier, [], "await".toList⟩, ⟨.identifier, [' '], ['p']⟩,
      ⟨.punctuator, [], ['.']⟩, ⟨.identifier, [], name.toList⟩, ⟨.punctuator, [], ['(']⟩,
      ⟨.identifier, [], ['h']⟩, ⟨.punctuator, [], [')']⟩, ⟨.identifier, ['\n'], "foo".toList⟩]
  have scanned : ∀ name ∈ ["catch", "foo"],
      Scan.within 9 none ("await p.".toList ++ name.toList ++ "(h)\nfoo".toList) =
        some ⟨tokens name, []⟩ := by decide
  have caught : tokenize "await p.catch(h)\nfoo".toList = tokens "catch" :=
    congrArg Scan.tokens (Scan.ofSource_of_within (scanned "catch" (by simp)))
  have named : tokenize "await p.foo(h)\nfoo".toList = tokens "foo" :=
    congrArg Scan.tokens (Scan.ofSource_of_within (scanned "foo" (by simp)))
  rw [caught, named]
  exact ⟨(tokens "catch").take 2, (tokens "catch").drop 4, ⟨.punctuator, [], ['.']⟩,
    ⟨.identifier, [], "catch".toList⟩, by decide, by decide, rfl, rfl, by decide, by decide⟩

end Member

end Statement

end ScriptConsole

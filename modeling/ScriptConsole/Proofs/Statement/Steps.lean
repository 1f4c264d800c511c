import ScriptConsole.Proofs.Statement.Cuts

/-!
# Cutting token by token

One step of the cut reads a token: a statement may end before it, and one may
end with it.  What a step decides hangs on the kind of the statement that has
begun and on the number of its tokens, not on their texts, so two cuts that
stand alike stay alike.
-/

namespace ScriptConsole.Statement

open Token

/-- What can be told of a statement without its tokens. -/
structure Outline where
  kind : Kind
  /-- The number of its tokens. -/
  length : Nat
  /-- A semicolon ends it. -/
  closed : Bool
  deriving DecidableEq, Repr

def outline (statement : Statement) : Outline :=
  ⟨statement.kind, statement.tokens.length, statement.semicolon.isSome⟩

/-- The boundaries, kinds and ends of the statements of a run of tokens. -/
def outlines (tokens : List Token) : List Outline :=
  (split tokens).map outline

namespace Draft

def outline (draft : Draft) : Outline :=
  ⟨draft.kind, draft.reversed.length, false⟩

@[simp] theorem outline_push (draft : Draft) (token : Token) :
    (draft.push token).outline = ⟨draft.kind, draft.reversed.length + 1, false⟩ := rfl

theorem outline_close (draft : Draft) (semicolon : Option Token) :
    Statement.outline (draft.close semicolon) =
      ⟨draft.kind, draft.reversed.length, semicolon.isSome⟩ := by
  simp [Statement.outline, close]

end Draft

namespace Cutter

/-- Begin a statement with a token: the statement, if the token ends it too, and
where the cut stands then. -/
def begin (cutter : Cutter) (before : List Token) (token : Token) (rest : List Token) :
    List Statement × Cutter :=
  if cutter.depth == 0 && token.isPunctuator ";" then
    ([⟨.empty, [], some token⟩], ⟨none, 0, cutter.headerOpen, false⟩)
  else
    let (statement, cutter) := cutter.add before token rest.head? ⟨kindOf token rest, []⟩
    (statement.toList, cutter)

/-- Read a token: the statements that end before it and with it, and where the cut
stands then. -/
def advance (cutter : Cutter) (before : List Token) (token : Token)
    (rest : List Token) : List Statement × Cutter :=
  match cutter.continued? before.head? token with
  | some draft =>
      let (statement, cutter) := cutter.add before token rest.head? draft
      (statement.toList, cutter)
  | none =>
      let (statements, next) := cutter.begin before token rest
      ((cutter.ended? before.head? token).toList ++ statements, next)

/-- Read the tokens that stand before `rest`. -/
def through (cutter : Cutter) (before : List Token) :
    (tokens rest : List Token) → List Statement × Cutter
  | [], _ => ([], cutter)
  | token :: tokens, rest =>
      let (statements, cutter) := cutter.advance before token (tokens ++ rest)
      let (more, cutter) := cutter.through (token :: before) tokens rest
      (statements ++ more, cutter)

theorem through_append (cutter : Cutter) (before tokens more rest : List Token) :
    cutter.through before (tokens ++ more) rest =
      ((cutter.through before tokens (more ++ rest)).1 ++
          ((cutter.through before tokens (more ++ rest)).2.through
            (tokens.reverse ++ before) more rest).1,
        ((cutter.through before tokens (more ++ rest)).2.through
          (tokens.reverse ++ before) more rest).2) := by
  induction tokens generalizing before cutter with
  | nil => simp [through]
  | cons token tokens ih => simp [through, ih]

end Cutter

theorem cutFrom_cons (before : List Token) (cutter : Cutter) (token : Token)
    (rest : List Token) :
    cutFrom before cutter (token :: rest) =
      (cutter.advance before token rest).1 ++
        cutFrom (token :: before) (cutter.advance before token rest).2 rest := by
  rw [cutFrom, Cutter.advance]
  cases cutter.continued? before.head? token with
  | some draft => rfl
  | none =>
      dsimp only [Cutter.begin]
      split <;> simp

theorem cutFrom_append (before : List Token) (cutter : Cutter) (tokens rest : List Token) :
    cutFrom before cutter (tokens ++ rest) =
      (cutter.through before tokens rest).1 ++
        cutFrom (tokens.reverse ++ before) (cutter.through before tokens rest).2 rest := by
  induction tokens generalizing before cutter with
  | nil => rfl
  | cons token tokens ih =>
      rw [List.cons_append, cutFrom_cons, ih]
      simp [Cutter.through]

/-- The look ahead for the kind of a statement stops at a punctuator that is no
asterisk. -/
theorem kindOf_congr_mark {mark : Token} (kind : mark.kind = .punctuator)
    (notAsterisk : mark.isPunctuator "*" = false) (token : Token)
    (lead rest rest' : List Token) :
    kindOf token (lead ++ mark :: rest) = kindOf token (lead ++ mark :: rest') := by
  have notIdentifier : mark.isIdentifier = false := by
    rw [isIdentifier, kind]
    rfl
  have noWord : ∀ word, mark.isWord word = false := by
    intro word
    rw [isWord, kind]
    rfl
  have head : ∀ lead : List Token, (lead ++ mark :: rest).head? =
      (lead ++ mark :: rest').head? := by
    rintro (_ | ⟨first, lead⟩) <;> rfl
  have names : ∀ lead : List Token, namesFunction (lead ++ mark :: rest) =
      namesFunction (lead ++ mark :: rest') := by
    rintro (_ | ⟨first, lead⟩)
    · simp [namesFunction, notAsterisk]
    · simp only [List.cons_append, namesFunction, head]
  unfold kindOf kindOfWord
  rw [head, names]
  rcases lead with _ | ⟨first, lead⟩
  · simp [noWord]
  · simp only [List.cons_append, List.tail_cons, names]

theorem Cutter.advance_congr_mark {mark : Token} (kind : mark.kind = .punctuator)
    (notAsterisk : mark.isPunctuator "*" = false) (cutter : Cutter)
    (before lead rest rest' : List Token) (token : Token) :
    cutter.advance before token (lead ++ mark :: rest) =
      cutter.advance before token (lead ++ mark :: rest') := by
  have head : (lead ++ mark :: rest).head? = (lead ++ mark :: rest').head? := by
    cases lead <;> rfl
  unfold Cutter.advance Cutter.begin
  rw [head, kindOf_congr_mark kind notAsterisk token lead rest rest']

namespace Cutter

/-- Two cuts that stand at the same point of statements of the same outline. -/
structure Alike (left right : Cutter) : Prop where
  draft : left.draft.map Draft.outline = right.draft.map Draft.outline
  depth : left.depth = right.depth
  headerOpen : left.headerOpen = right.headerOpen
  afterHeader : left.afterHeader = right.afterHeader

theorem endsBefore_congr {left right : Cutter} {leftDraft rightDraft : Draft}
    (alike : left.Alike right) (drafts : leftDraft.outline = rightDraft.outline)
    (previous : Option Token) (token : Token) :
    left.endsBefore previous token leftDraft = right.endsBefore previous token rightDraft := by
  have kind : leftDraft.kind = rightDraft.kind := congrArg Outline.kind drafts
  simp only [endsBefore, alike.depth, alike.afterHeader, kind]

theorem add_congr {left right : Cutter} {before before' : List Token} {token : Token}
    {leftDraft rightDraft : Draft} (alike : left.Alike right)
    (drafts : leftDraft.outline = rightDraft.outline)
    (header : token.opensWith .round = true → left.depth = 0 → left.headerOpen = false →
      opensHeader before = opensHeader before') (next : Option Token) :
    (left.add before token next leftDraft).1.map outline =
        (right.add before' token next rightDraft).1.map outline ∧
      (left.add before token next leftDraft).2.Alike
        (right.add before' token next rightDraft).2 := by
  have kind : leftDraft.kind = rightDraft.kind := congrArg Outline.kind drafts
  have length : leftDraft.reversed.length = rightDraft.reversed.length :=
    congrArg Outline.length drafts
  have pushed : (leftDraft.push token).outline = (rightDraft.push token).outline := by
    rw [Draft.outline_push, Draft.outline_push, kind, length]
  have closed : ∀ semicolon, outline (leftDraft.close semicolon) =
      outline (rightDraft.close semicolon) := by
    intro semicolon
    rw [Draft.outline_close, Draft.outline_close, kind, length]
  have closedPush : outline ((leftDraft.push token).close none) =
      outline ((rightDraft.push token).close none) := by
    rw [Draft.outline_close, Draft.outline_close]
    exact pushed
  unfold add
  rw [← alike.depth, ← alike.headerOpen]
  cases opens : token.opens? with
  | some bracket =>
      have opened : (left.headerOpen ||
            (left.depth == 0 && bracket == .round && opensHeader before)) =
          (left.headerOpen ||
            (left.depth == 0 && bracket == .round && opensHeader before')) := by
        by_cases told : left.headerOpen = false ∧ left.depth = 0 ∧ bracket = .round
        · obtain ⟨notOpen, outside, rfl⟩ := told
          rw [header (by simp [opensWith, opens]) outside notOpen]
        · grind
      exact ⟨rfl, congrArg some pushed, rfl, opened, rfl⟩
  | none =>
      cases token.closes? with
      | some bracket =>
          dsimp only
          rw [kind]
          split
          · split
            · exact ⟨congrArg some closedPush, rfl, rfl, rfl, rfl⟩
            · exact ⟨rfl, congrArg some pushed, rfl, rfl, rfl⟩
          · exact ⟨rfl, congrArg some pushed, rfl, rfl, rfl⟩
      | none =>
          dsimp only
          split
          · exact ⟨congrArg some (closed _), rfl, rfl, rfl, rfl⟩
          · exact ⟨rfl, congrArg some pushed, rfl, rfl, rfl⟩

theorem begin_congr {left right : Cutter} {before before' : List Token} {token : Token}
    (alike : left.Alike right)
    (header : token.opensWith .round = true → left.depth = 0 → left.headerOpen = false →
      opensHeader before = opensHeader before') (rest : List Token) :
    (left.begin before token rest).1.map outline =
        (right.begin before' token rest).1.map outline ∧
      (left.begin before token rest).2.Alike (right.begin before' token rest).2 := by
  unfold begin
  rw [← alike.depth]
  split
  · exact ⟨rfl, rfl, rfl, alike.headerOpen, rfl⟩
  · have same : (⟨kindOf token rest, []⟩ : Draft).outline =
        (⟨kindOf token rest, []⟩ : Draft).outline := rfl
    obtain ⟨statements, cutters⟩ := add_congr alike same header rest.head?
    exact ⟨by simpa [Option.toList_map] using congrArg Option.toList statements, cutters⟩

/-- Cuts that stand alike read a token alike, unless they tell the tokens before it
apart. -/
theorem advance_congr {left right : Cutter} (before before' : List Token) {token : Token}
    (alike : left.Alike right)
    (ends : ∀ draft, left.draft = some draft →
      left.endsBefore before.head? token draft = left.endsBefore before'.head? token draft)
    (header : token.opensWith .round = true → left.depth = 0 → left.headerOpen = false →
      opensHeader before = opensHeader before') (rest : List Token) :
    (left.advance before token rest).1.map outline =
        (right.advance before' token rest).1.map outline ∧
      (left.advance before token rest).2.Alike (right.advance before' token rest).2 := by
  obtain ⟨begun, cutters⟩ := begin_congr alike header rest
  have drafts := alike.draft
  unfold advance continued? ended?
  cases hl : left.draft with
  | none =>
      cases hr : right.draft with
      | none => exact ⟨by simpa using begun, cutters⟩
      | some draft => simp [hl, hr] at drafts
  | some leftDraft =>
      cases hr : right.draft with
      | none => simp [hl, hr] at drafts
      | some rightDraft =>
          have same : leftDraft.outline = rightDraft.outline := by simpa [hl, hr] using drafts
          have hends := ends leftDraft hl
          rw [endsBefore_congr alike same before'.head? token] at hends
          dsimp only
          rw [← hends]
          cases left.endsBefore before.head? token leftDraft with
          | true =>
              have closed : outline (leftDraft.close none) = outline (rightDraft.close none) := by
                rw [Draft.outline_close, Draft.outline_close]
                exact same
              exact ⟨by simpa [closed] using begun, cutters⟩
          | false =>
              obtain ⟨statements, next⟩ := add_congr alike same header rest.head?
              exact ⟨by simpa [Option.toList_map] using congrArg Option.toList statements, next⟩

/-- A token that goes on with a statement ends it as its semicolon, ends it as its last
token, or becomes its latest token. -/
theorem add_cases (cutter : Cutter) (before : List Token) (token : Token)
    (next : Option Token) (draft : Draft) :
    ((cutter.add before token next draft).1 = some (draft.close (some token)) ∧
        cutter.depth = 0 ∧ token.isPunctuator ";" = true ∧
        next.any (·.isWord "else") = false) ∨
      (cutter.add before token next draft).1 = some ((draft.push token).close none) ∨
      (cutter.add before token next draft).1 = none ∧
        (cutter.add before token next draft).2.draft = some (draft.push token) := by
  unfold add
  cases token.opens? with
  | some bracket => exact .inr (.inr ⟨rfl, rfl⟩)
  | none =>
      cases token.closes? with
      | some bracket =>
          dsimp only
          split
          · split
            · exact .inr (.inl rfl)
            · exact .inr (.inr ⟨rfl, rfl⟩)
          · exact .inr (.inr ⟨rfl, rfl⟩)
      | none =>
          dsimp only
          split
          · rename_i ends
            exact .inl ⟨rfl, by simpa [and_assoc] using ends⟩
          · exact .inr (.inr ⟨rfl, rfl⟩)

end Cutter

/-- The statement that has begun is the first of those that are cut. -/
theorem exists_cutFrom_cons {cutter : Cutter} {draft : Draft}
    (begun : cutter.draft = some draft) (before tokens : List Token) :
    ∃ more semicolon statements, cutFrom before cutter tokens =
      ⟨draft.kind, draft.reversed.reverse ++ more, semicolon⟩ :: statements := by
  induction tokens generalizing cutter draft before with
  | nil => exact ⟨[], none, [], by simp [cutFrom, begun, Draft.close]⟩
  | cons token rest ih =>
      rw [cutFrom_cons, Cutter.advance, Cutter.continued?, Cutter.ended?, begun]
      dsimp only
      cases cutter.endsBefore before.head? token draft with
      | true => exact ⟨[], none, _, by simp [Draft.close]; rfl⟩
      | false =>
          rcases cutter.add_cases before token rest.head? draft with
            ⟨hs, -⟩ | hs | ⟨hnone, hdraft⟩
          · exact ⟨[], some token, _, by simp [hs, Draft.close]; rfl⟩
          · exact ⟨[token], none, _, by simp [hs, Draft.close, Draft.push]; rfl⟩
          · obtain ⟨more, semicolon, statements, hcut⟩ := ih hdraft (token :: before)
            refine ⟨token :: more, semicolon, statements, ?_⟩
            simpa [hnone, Draft.push] using hcut

/-- A statement that goes on with a token takes it as its next token, or as the
semicolon that ends it. -/
theorem exists_cutFrom_cons_of_continued {cutter : Cutter} {before : List Token}
    {token : Token} {draft : Draft} (h : cutter.continued? before.head? token = some draft)
    (rest : List Token) :
    ∃ more semicolon statements, cutFrom before cutter (token :: rest) =
        ⟨draft.kind, draft.reversed.reverse ++ more, semicolon⟩ :: statements ∧
      (more.head? = some token ∨ more = [] ∧ semicolon = some token ∧ cutter.depth = 0 ∧
        token.isPunctuator ";" = true ∧ rest.head?.any (·.isWord "else") = false) := by
  rw [cutFrom_cons_of_continued h]
  rcases cutter.add_cases before token rest.head? draft with
    ⟨hs, ends⟩ | hs | ⟨hnone, hdraft⟩
  · exact ⟨[], some token, _, by simp [hs, Draft.close]; rfl, .inr ⟨rfl, rfl, ends⟩⟩
  · exact ⟨[token], none, _, by simp [hs, Draft.close, Draft.push]; rfl, .inl rfl⟩
  · obtain ⟨more, semicolon, statements, hcut⟩ :=
      exists_cutFrom_cons hdraft (token :: before) rest
    refine ⟨token :: more, semicolon, statements, ?_, .inl rfl⟩
    simpa [hnone, Draft.push] using hcut

/-- Two cuts differ when a statement goes on in one and has ended in the other. -/
theorem outlines_ne_of_ended {left right : Cutter} {before before' : List Token}
    {token : Token} (leftDraft rightDraft : Draft)
    (goesOn : left.continued? before.head? token = some leftDraft)
    (ended : right.ended? before'.head? token = some (rightDraft.close none))
    (same : leftDraft.outline = rightDraft.outline) (rest : List Token) :
    (cutFrom before left (token :: rest)).map outline ≠
      (cutFrom before' right (token :: rest)).map outline := by
  have notContinued : right.continued? before'.head? token = none := by
    unfold Cutter.ended? at ended
    unfold Cutter.continued?
    split at ended
    · split at ended <;> simp_all
    · simp at ended
  obtain ⟨more, semicolon, statements, hcut, next⟩ :=
    exists_cutFrom_cons_of_continued goesOn rest
  rw [hcut, cutFrom_cons_of_not_continued notContinued, ended]
  intro h
  simp only [Option.toList_some, List.cons_append, List.map_cons, List.nil_append,
    List.cons.injEq, Draft.outline_close] at h
  have length := congrArg Outline.length (h.1.trans same.symm)
  have closed := congrArg Outline.closed (h.1.trans same.symm)
  rcases next with first | ⟨-, rfl, -⟩
  · cases more with
    | nil => cases first
    | cons token more => simp [outline, Draft.outline] at length
  · cases closed

end ScriptConsole.Statement

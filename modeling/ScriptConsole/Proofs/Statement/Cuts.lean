import ScriptConsole.Proofs.Nesting
import ScriptConsole.Statement

/-!
# Where statements are cut

Every statement begins outside all brackets, and ends there unless the source
ends first.  Its kind is read off its first token and what follows it.  Without
a closing semicolon it ends with a curly bracket, before a line break, or with
the source.
-/

namespace ScriptConsole.Statement

open Token

/-- How a statement stands between the tokens before it and the statements after
it. -/
structure Placed (before : List Token) (statement : Statement)
    (after : List Statement) : Prop where
  outside : depthOf before = 0
  empty_iff : statement.kind = .empty ↔ statement.tokens = []
  semicolon_of_empty : statement.kind = .empty → statement.semicolon.isSome
  isSemicolon : ∀ token ∈ statement.semicolon, token.isPunctuator ";" = true
  kind_eq : ∀ first more, statement.tokens = first :: more →
    statement.kind = kindOf first (more ++ statement.semicolon.toList ++ tokensOf after)
  closed : statement.semicolon.isSome = true ∨ after ≠ [] →
    depthOf (before ++ statement.tokens) = 0
  apart : statement.semicolon = none → ∀ next ∈ after.head?,
    ∃ last ∈ statement.tokens.getLast?, last.closesWith .curly = true ∨
      ∃ first ∈ next.tokens.head?, first.startsLine = true ∧
        breaksBetween last first = true

/-- A run of statements after the tokens `before`, each in its place. -/
def Laid (before : List Token) : List Statement → Prop
  | [] => True
  | statement :: after =>
      Placed before statement after ∧ Laid (before ++ statement.allTokens) after

/-- A statement that has begun after the tokens `outer` and goes on with `rest`. -/
structure Begun (outer : List Token) (draft : Draft) (rest : List Token) : Prop where
  outside : depthOf outer = 0
  kind_ne : draft.kind ≠ .empty
  kind_eq : ∃ first more, draft.reversed.reverse = first :: more ∧
    draft.kind = kindOf first (more ++ rest)

/-- A cutter that has read the tokens `before`, latest first, up to `rest`; what it
has not cut off begins after `outer`. -/
structure Cutter.Tracks (outer before : List Token) (cutter : Cutter)
    (rest : List Token) : Prop where
  depth_eq : cutter.depth = depthOf before.reverse
  before_eq : before.reverse = outer ++ Draft.tokensOf cutter.draft
  depth_of_none : cutter.draft = none → cutter.depth = 0
  begun : ∀ draft ∈ cutter.draft, Begun outer draft rest

theorem kindOf_ne_empty (token : Token) (rest : List Token) : kindOf token rest ≠ .empty := by
  unfold kindOf
  split
  · exact Kind.noConfusion
  · split
    · unfold kindOfWord
      repeat' split
      all_goals exact Kind.noConfusion
    · exact Kind.noConfusion

theorem tokensOf_cons (statement : Statement) (statements : List Statement) :
    tokensOf (statement :: statements) = statement.allTokens ++ tokensOf statements := by
  simp [tokensOf]

theorem tokensOf_append (left right : List Statement) :
    tokensOf (left ++ right) = tokensOf left ++ tokensOf right :=
  List.flatMap_append

theorem mem_tokensOf {statements : List Statement} {statement : Statement}
    (mem : statement ∈ statements) {token : Token} (own : token ∈ statement.tokens) :
    token ∈ tokensOf statements :=
  List.mem_flatMap.2 ⟨statement, mem, List.mem_append_left _ own⟩

theorem cutFrom_cons_of_continued {before : List Token} {cutter : Cutter} {token : Token}
    {draft : Draft} (h : cutter.continued? before.head? token = some draft)
    (rest : List Token) :
    cutFrom before cutter (token :: rest) =
      (cutter.add before token rest.head? draft).1.toList ++
        cutFrom (token :: before) (cutter.add before token rest.head? draft).2 rest := by
  rw [cutFrom]
  simp only [h]

/-- The statements from a token on that begins one. -/
def cutFresh (before : List Token) (cutter : Cutter) (token : Token) (rest : List Token) :
    List Statement :=
  if cutter.depth == 0 && token.isPunctuator ";" then
    ⟨.empty, [], some token⟩ ::
      cutFrom (token :: before) ⟨none, 0, cutter.headerOpen, false⟩ rest
  else
    (cutter.add before token rest.head? ⟨kindOf token rest, []⟩).1.toList ++
      cutFrom (token :: before)
        (cutter.add before token rest.head? ⟨kindOf token rest, []⟩).2 rest

theorem cutFrom_cons_of_not_continued {before : List Token} {cutter : Cutter}
    {token : Token} (h : cutter.continued? before.head? token = none) (rest : List Token) :
    cutFrom before cutter (token :: rest) =
      (cutter.ended? before.head? token).toList ++ cutFresh before cutter token rest := by
  rw [cutFrom, cutFresh]
  simp only [h]
  split <;> simp

/-- A statement that ends without a semicolon stands where it has begun. -/
theorem Begun.placed_close {outer rest : List Token} {draft : Draft}
    {after : List Statement} (begun : Begun outer draft rest) (tokens : tokensOf after = rest)
    (closed : after ≠ [] → depthOf (outer ++ draft.reversed.reverse) = 0)
    (apart : ∀ next ∈ after.head?, ∃ last ∈ draft.reversed.reverse.getLast?,
      last.closesWith .curly = true ∨ ∃ first ∈ next.tokens.head?,
        first.startsLine = true ∧ breaksBetween last first = true) :
    Placed outer (draft.close none) after := by
  obtain ⟨first, more, hfirst, hkind⟩ := begun.kind_eq
  exact {
    outside := begun.outside
    empty_iff := by simp [Draft.close, hfirst, begun.kind_ne]
    semicolon_of_empty := fun h => absurd h begun.kind_ne
    isSemicolon := by simp [Draft.close]
    kind_eq := by
      intro first' more' h
      have same : first' :: more' = first :: more := h.symm.trans hfirst
      obtain ⟨rfl, rfl⟩ := List.cons.inj same
      simp [Draft.close, hkind, tokens]
    closed := fun h => closed (h.resolve_left (by simp [Draft.close]))
    apart := fun _ => apart }

theorem Begun.placed_close_semicolon {outer rest : List Token} {draft : Draft}
    {token : Token} {after : List Statement} (begun : Begun outer (draft.push token) rest)
    (nonempty : draft.reversed ≠ []) (mark : token.isPunctuator ";" = true)
    (tokens : tokensOf after = rest)
    (closed : depthOf (outer ++ draft.reversed.reverse) = 0) :
    Placed outer (draft.close (some token)) after := by
  obtain ⟨first, more, hfirst, hkind⟩ := begun.kind_eq
  exact {
    outside := begun.outside
    empty_iff := by simpa [Draft.close, Draft.push, nonempty] using begun.kind_ne
    semicolon_of_empty := fun h => absurd h begun.kind_ne
    isSemicolon := by simpa [Draft.close] using mark
    kind_eq := by
      intro first' more' h
      have whole : (draft.push token).reversed.reverse =
          (draft.close (some token)).tokens ++ [token] := by
        simp [Draft.close, Draft.push]
      rw [h, hfirst, List.cons_append] at whole
      obtain ⟨rfl, rfl⟩ := List.cons.inj whole
      simpa [Draft.close, Draft.push, tokens] using hkind
    closed := fun _ => closed
    apart := by simp [Draft.close] }

namespace Cutter.Tracks

variable {outer before rest : List Token} {token : Token} {next : Cutter}

/-- The statement that has begun takes a token in, whatever depth it is at. -/
theorem goesOn {draft : Draft} (before_eq : before.reverse = outer ++ draft.reversed.reverse)
    (begun : Begun outer (draft.push token) rest) (drafted : next.draft = some (draft.push token))
    (depth : next.depth = depthOf (token :: before).reverse) :
    Tracks outer (token :: before) next rest where
  depth_eq := depth
  before_eq := by simp [drafted, before_eq, Draft.tokensOf, Draft.push]
  depth_of_none := by simp [drafted]
  begun := by
    intro other same
    rw [drafted, Option.mem_some_iff] at same
    exact same ▸ begun

/-- Outside all brackets a statement is cut off, and nothing has begun after it. -/
theorem cutsOff (dropped : next.draft = none) (zero : next.depth = 0)
    (outside : depthOf before.reverse = 0) : Tracks before.reverse before next rest where
  depth_eq := zero.trans outside.symm
  before_eq := by simp [dropped, Draft.tokensOf]
  depth_of_none := fun _ => zero
  begun := by simp [dropped]

end Cutter.Tracks

section

variable {outer before rest : List Token} {cutter : Cutter} {token : Token}

/-- What is laid after the statement that ends with a token is laid with it. -/
theorem laid_cons {statement : Statement} {next : Cutter} (dropped : next.draft = none)
    (zero : next.depth = 0) (outside : depthOf (token :: before).reverse = 0)
    (whole : outer ++ statement.allTokens = (token :: before).reverse)
    (placed : Placed outer statement (cutFrom (token :: before) next rest))
    (ih : ∀ outer cutter, Cutter.Tracks outer (token :: before) cutter rest →
      Laid outer (cutFrom (token :: before) cutter rest)) :
    Laid outer (statement :: cutFrom (token :: before) next rest) := by
  refine ⟨placed, ?_⟩
  rw [whole]
  exact ih _ next (.cutsOff dropped zero outside)

/-- One more token of a statement: it is laid right if what follows is. -/
theorem laid_add {draft : Draft} (depth : cutter.depth = depthOf before.reverse)
    (before_eq : before.reverse = outer ++ draft.reversed.reverse)
    (begun : Begun outer (draft.push token) rest)
    (nonempty : cutter.depth = 0 → token.isPunctuator ";" = true → draft.reversed ≠ [])
    (ih : ∀ outer cutter, Cutter.Tracks outer (token :: before) cutter rest →
      Laid outer (cutFrom (token :: before) cutter rest)) :
    Laid outer ((cutter.add before token rest.head? draft).1.toList ++
      cutFrom (token :: before) (cutter.add before token rest.head? draft).2 rest) := by
  have deeper : depthOf (token :: before).reverse =
      Declaration.depthAfter cutter.depth token := by
    rw [List.reverse_cons, depthOf_append_singleton, depth]
  have goesOn {next : Cutter} (drafted : next.draft = some (draft.push token))
      (same : next.depth = depthOf (token :: before).reverse) :
      Laid outer (cutFrom (token :: before) next rest) :=
    ih outer next (.goesOn before_eq begun drafted same)
  unfold Cutter.add
  cases opens : token.opens? with
  | some bracket =>
      refine goesOn rfl ?_
      rw [deeper, Declaration.depthAfter, isOpener, opens]
      rfl
  | none =>
      cases closes : token.closes? with
      | some bracket =>
          rw [depthAfter_of_closes closes] at deeper
          dsimp only
          split
          · rename_i zero
            split
            · rename_i block
              simp only [Bool.and_eq_true, beq_iff_eq] at block
              have outside := deeper.trans zero
              have whole : outer ++ ((draft.push token).close none).allTokens =
                  (token :: before).reverse := by
                simp [before_eq, Draft.close, Draft.push, allTokens]
              refine laid_cons rfl rfl outside whole (begun.placed_close ?_ ?_ ?_) ih
              · simp [tokensOf_cutFrom, Draft.tokensOf]
              · intro _
                rw [← outside, ← whole]
                simp [Draft.close, allTokens]
              · intro next _
                refine ⟨token, by simp [Draft.push], .inl ?_⟩
                simp [closesWith, closes, block.1.1]
            · exact goesOn rfl (deeper.trans zero).symm
          · exact goesOn rfl deeper.symm
      | none =>
          rw [depthAfter_of_plain opens closes] at deeper
          dsimp only
          split
          · rename_i semicolon
            simp only [Bool.and_eq_true, beq_iff_eq] at semicolon
            obtain ⟨⟨zero, mark⟩, -⟩ := semicolon
            have whole : outer ++ (draft.close (some token)).allTokens =
                (token :: before).reverse := by
              simp [before_eq, Draft.close, allTokens]
            refine laid_cons rfl rfl (deeper.trans zero) whole ?_ ih
            refine begun.placed_close_semicolon (nonempty zero mark) mark ?_ ?_
            · simp [tokensOf_cutFrom, Draft.tokensOf]
            · rw [← before_eq, ← depth, zero]
          · exact goesOn rfl deeper.symm

theorem laid_cutFresh (zero : cutter.depth = 0) (outside : depthOf before.reverse = 0)
    (ih : ∀ outer cutter, Cutter.Tracks outer (token :: before) cutter rest →
      Laid outer (cutFrom (token :: before) cutter rest)) :
    Laid before.reverse (cutFresh before cutter token rest) := by
  unfold cutFresh
  split
  · rename_i hmark
    simp only [Bool.and_eq_true, beq_iff_eq] at hmark
    have hdepth : depthOf (token :: before).reverse = 0 := by
      obtain ⟨opens, closes⟩ := plain_of_isPunctuator (by simp) hmark.2
      rw [List.reverse_cons, depthOf_append_singleton, outside, depthAfter_of_plain opens closes]
    refine laid_cons rfl rfl hdepth (by simp [allTokens]) ?_ ih
    exact {
      outside := outside
      empty_iff := by simp
      semicolon_of_empty := fun _ => rfl
      isSemicolon := by simpa using hmark.2
      kind_eq := by simp
      closed := by simpa using outside
      apart := by simp }
  · rename_i hmark
    refine laid_add (zero.trans outside.symm) (by simp) ⟨outside, ?_, ?_⟩ ?_ ih
    · exact kindOf_ne_empty token rest
    · exact ⟨token, [], by simp [Draft.push], rfl⟩
    · intro _ hsemicolon
      simp [zero, hsemicolon] at hmark

end

/-- The first of a run of statements begins with the first of their tokens, unless
that is a semicolon. -/
theorem head?_tokens_of_laid {before more : List Token} {token : Token}
    {statement : Statement} {statements : List Statement}
    (laid : Laid before (statement :: statements))
    (tokens : tokensOf (statement :: statements) = token :: more)
    (mark : token.isPunctuator ";" = false) :
    statement.tokens.head? = some token := by
  rw [tokensOf_cons, allTokens] at tokens
  cases h : statement.tokens with
  | cons first rest =>
      rw [h] at tokens
      simp only [List.cons_append, List.cons.injEq] at tokens
      rw [List.head?_cons, tokens.1]
  | nil =>
      have hempty := laid.1.empty_iff.2 h
      obtain ⟨semicolon, hsemicolon⟩ :=
        Option.isSome_iff_exists.1 (laid.1.semicolon_of_empty hempty)
      rw [h, hsemicolon] at tokens
      simp only [Option.toList_some, List.nil_append, List.cons_append,
        List.cons.injEq] at tokens
      have := laid.1.isSemicolon semicolon hsemicolon
      rw [tokens.1, mark] at this
      cases this

theorem isPunctuator_semicolon_of_breaksBetween {previous token : Token}
    (breaks : breaksBetween previous token = true) : token.isPunctuator ";" = false := by
  cases h : token.isPunctuator ";" with
  | false => rfl
  | true =>
      simp [breaksBetween, continuesExpression, isPunctuator_iff.1 h, isPunctuatorIn] at breaks

/-- A statement ends before a line break, and what is laid from there on begins another. -/
theorem laid_ended {outer before rest : List Token} {cutter : Cutter} {token : Token}
    {draft : Draft} (before_eq : before.reverse = outer ++ draft.reversed.reverse)
    (begun : Begun outer draft (token :: rest))
    (ends : cutter.endsBefore before.head? token draft = true)
    (outside : depthOf before.reverse = 0)
    (tokens : tokensOf (cutFresh before cutter token rest) = token :: rest)
    (laid : Laid before.reverse (cutFresh before cutter token rest)) :
    Laid outer (draft.close none :: cutFresh before cutter token rest) := by
  simp only [Cutter.endsBefore, Bool.and_eq_true, beq_iff_eq] at ends
  obtain ⟨⟨⟨⟨-, line⟩, -⟩, -⟩, atBreak⟩ := ends
  obtain ⟨last, isLast, breaks⟩ := (Option.any_eq_true _ _).1 atBreak
  obtain ⟨first, more, begins, -⟩ := begun.kind_eq
  have getLast : draft.reversed.reverse.getLast? = some last := by
    have whole := congrArg List.getLast? before_eq
    rw [List.getLast?_reverse, isLast, begins, List.getLast?_append] at whole
    rw [begins]
    simpa using whole.symm
  have upTo : outer ++ (draft.close none).allTokens = before.reverse := by
    simp [Draft.close, allTokens, before_eq]
  refine ⟨begun.placed_close tokens ?_ ?_, upTo ▸ laid⟩
  · intro _
    rw [← before_eq, outside]
  · intro next isNext
    obtain ⟨others, following⟩ := List.head?_eq_some_iff.1 isNext
    rw [following] at laid tokens
    have head := head?_tokens_of_laid laid tokens
      (isPunctuator_semicolon_of_breaksBetween breaks)
    exact ⟨last, getLast, .inr ⟨token, head, line, breaks⟩⟩

/-- Statements are cut where they may end: from every point of a run on. -/
theorem laid_cutFrom {outer before : List Token} {cutter : Cutter} {tokens : List Token}
    (tracks : Cutter.Tracks outer before cutter tokens) :
    Laid outer (cutFrom before cutter tokens) := by
  induction tokens generalizing outer before cutter with
  | nil =>
      cases hdraft : cutter.draft with
      | none => simp [cutFrom, hdraft, Laid]
      | some draft =>
          rw [cutFrom, hdraft]
          exact ⟨(tracks.begun draft hdraft).placed_close rfl (by simp) (by simp), trivial⟩
  | cons token rest ih =>
      have further : ∀ outer cutter, Cutter.Tracks outer (token :: before) cutter rest →
          Laid outer (cutFrom (token :: before) cutter rest) := fun _ _ => ih
      have whole := tokensOf_cutFrom before cutter (token :: rest)
      cases hdraft : cutter.draft with
      | none =>
          have zero := tracks.depth_of_none hdraft
          have fresh : cutter.continued? before.head? token = none ∧
              cutter.ended? before.head? token = none := by
            simp [Cutter.continued?, Cutter.ended?, hdraft]
          have houter : outer = before.reverse := by
            simpa [hdraft, Draft.tokensOf] using tracks.before_eq.symm
          rw [cutFrom_cons_of_not_continued fresh.1, fresh.2, houter]
          exact laid_cutFresh zero (zero ▸ tracks.depth_eq.symm) further
      | some draft =>
          have begun := tracks.begun draft hdraft
          have before_eq : before.reverse = outer ++ draft.reversed.reverse := by
            simpa [hdraft, Draft.tokensOf] using tracks.before_eq
          cases ends : cutter.endsBefore before.head? token draft with
          | false =>
              obtain ⟨first, more, begins, kind⟩ := begun.kind_eq
              have continued : cutter.continued? before.head? token = some draft := by
                simp [Cutter.continued?, hdraft, ends]
              rw [cutFrom_cons_of_continued continued]
              refine laid_add tracks.depth_eq before_eq ⟨begun.outside, begun.kind_ne, ?_⟩ ?_
                further
              · exact ⟨first, more ++ [token], by simp [Draft.push, begins],
                  by simpa [Draft.push] using kind⟩
              · intro _ _ empty
                simp [empty] at begins
          | true =>
              have ended : cutter.continued? before.head? token = none ∧
                  cutter.ended? before.head? token = some (draft.close none) := by
                simp [Cutter.continued?, Cutter.ended?, hdraft, ends]
              have zero : cutter.depth = 0 := by
                simp only [Cutter.endsBefore, Bool.and_eq_true, beq_iff_eq] at ends
                exact ends.1.1.1.1
              have outside : depthOf before.reverse = 0 := tracks.depth_eq.symm.trans zero
              rw [cutFrom_cons_of_not_continued ended.1, ended.2] at whole ⊢
              refine laid_ended before_eq begun ends outside ?_
                (laid_cutFresh zero outside further)
              simpa [tokensOf_cons, allTokens, Draft.close, hdraft, Draft.tokensOf] using whole

theorem laid_split (tokens : List Token) : Laid [] (split tokens) :=
  laid_cutFrom ⟨rfl, rfl, fun _ => rfl, by simp [Cutter.initial]⟩

end ScriptConsole.Statement

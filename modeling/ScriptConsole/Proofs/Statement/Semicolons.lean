import ScriptConsole.Proofs.Statement.Steps

/-!
# Cutting at semicolons

A semicolon outside all brackets ends what the cut has begun, and leaves nothing
behind for what follows: no bracket, no header and no statement is open, and no
token after it is decided by what stands before it.  So two runs of tokens with
such a semicolon between them are cut one after the other.
-/

namespace ScriptConsole.Statement

open Token

/-- Where a statement lies in its source, as the places of its tokens. -/
structure Range where
  kind : Kind
  first : Nat
  last : Nat
  semicolon : Option Nat
  deriving DecidableEq, Repr

/-- The same range in a source with `count` more tokens in front. -/
def Range.shift (count : Nat) (range : Range) : Range :=
  ⟨range.kind, range.first + count, range.last + count, range.semicolon.map (· + count)⟩

/-- The range of a statement that begins at place `start`; none if it is empty. -/
def range? (start : Nat) (statement : Statement) : Option Range :=
  if statement.kind = .empty then none
  else
    some ⟨statement.kind, start, start + statement.tokens.length - 1,
      statement.semicolon.map fun _ => start + statement.tokens.length⟩

/-- The ranges of statements one after another, the first of which begins at place
`start`. -/
def rangesFrom (start : Nat) : List Statement → List Range
  | [] => []
  | statement :: statements =>
      (range? start statement).toList ++
        rangesFrom (start + statement.allTokens.length) statements

/-- The ranges of the statements of a source. -/
def ranges (tokens : List Token) : List Range :=
  rangesFrom 0 (split tokens)

theorem rangesFrom_append (start : Nat) (left right : List Statement) :
    rangesFrom start (left ++ right) =
      rangesFrom start left ++ rangesFrom (start + (tokensOf left).length) right := by
  induction left generalizing start with
  | nil => rfl
  | cons statement left ih =>
      simp [rangesFrom, ih, tokensOf_cons, Nat.add_assoc]

theorem range?_add {start : Nat} {statement : Statement}
    (owns : statement.kind ≠ .empty → statement.tokens ≠ []) (count : Nat) :
    range? (start + count) statement = (range? start statement).map (Range.shift count) := by
  unfold range?
  by_cases empty : statement.kind = .empty
  · simp [empty]
  · have := List.length_pos_iff.2 (owns empty)
    rw [if_neg empty, if_neg empty, Option.map_some, Range.shift]
    congr 1
    cases statement.semicolon <;> simp <;> omega

theorem rangesFrom_add {start : Nat} {statements : List Statement}
    (own : ∀ statement ∈ statements, statement.kind ≠ .empty → statement.tokens ≠ [])
    (count : Nat) :
    rangesFrom (start + count) statements =
      (rangesFrom start statements).map (Range.shift count) := by
  induction statements generalizing start with
  | nil => rfl
  | cons statement statements ih =>
      rw [List.forall_mem_cons] at own
      have next : start + count + statement.allTokens.length =
          start + statement.allTokens.length + count := by omega
      rw [rangesFrom, rangesFrom, range?_add own.1, next, ih own.2, List.map_append,
        Option.toList_map]

theorem tokens_ne_nil_of_laid {before : List Token} {statements : List Statement}
    (laid : Laid before statements) :
    ∀ statement ∈ statements, statement.kind ≠ .empty → statement.tokens ≠ [] := by
  induction statements generalizing before with
  | nil => simp
  | cons statement statements ih =>
      rw [List.forall_mem_cons]
      exact ⟨fun kind nothing => kind (laid.1.empty_iff.2 nothing), ih laid.2⟩

/-- The ranges of two runs of tokens that are cut one after the other. -/
theorem ranges_append_of_split {left right : List Token}
    (h : split (left ++ right) = split left ++ split right) :
    ranges (left ++ right) = ranges left ++ (ranges right).map (Range.shift left.length) := by
  have own := tokens_ne_nil_of_laid (laid_split right)
  rw [ranges, h, rangesFrom_append, tokensOf_split, rangesFrom_add own]
  rfl

/-! ## What a run in brackets leaves open -/

namespace Cutter

theorem depth_add (cutter : Cutter) (before : List Token) (token : Token)
    (next : Option Token) (draft : Draft) :
    (cutter.add before token next draft).2.depth =
      Declaration.depthAfter cutter.depth token := by
  unfold add Declaration.depthAfter isOpener isCloser
  cases token.opens? with
  | some bracket => rfl
  | none =>
      cases token.closes? with
      | some bracket =>
          by_cases outside : cutter.depth - 1 = 0
          · simp only [outside, if_true]
            split <;> rfl
          · simp [outside]
      | none =>
          dsimp only
          split
          · rename_i ends
            simp only [Bool.and_eq_true, beq_iff_eq] at ends
            exact ends.1.1.symm
          · rfl

/-- Whether a header is open after a token that goes on with a statement. -/
def headerAfter (cutter : Cutter) (before : List Token) (token : Token) : Bool :=
  match token.opens?, token.closes? with
  | some bracket, _ =>
      cutter.headerOpen || (cutter.depth == 0 && bracket == .round && opensHeader before)
  | none, some bracket =>
      cutter.headerOpen && !(decide (cutter.depth ≤ 1) && bracket == .round)
  | none, none => cutter.headerOpen

theorem headerOpen_add (cutter : Cutter) (before : List Token) (token : Token)
    (next : Option Token) (draft : Draft) :
    (cutter.add before token next draft).2.headerOpen = cutter.headerAfter before token := by
  unfold add headerAfter
  cases token.opens? with
  | some bracket => rfl
  | none =>
      cases token.closes? with
      | some bracket =>
          by_cases outside : cutter.depth ≤ 1
          · have zero : cutter.depth - 1 = 0 := by omega
            simp only [zero, if_true, outside, decide_true, Bool.true_and]
            split <;> cases cutter.headerOpen <;> simp
          · have inside : ¬cutter.depth - 1 = 0 := by omega
            simp [outside, inside]
      | none =>
          dsimp only
          split <;> rfl

/-- What is open after a token does not depend on the statements. -/
theorem advance_open (cutter : Cutter) (before : List Token) (token : Token)
    (rest : List Token) :
    (cutter.advance before token rest).2.depth = Declaration.depthAfter cutter.depth token ∧
      (cutter.advance before token rest).2.headerOpen = cutter.headerAfter before token := by
  unfold advance
  cases cutter.continued? before.head? token with
  | some draft => exact ⟨depth_add .., headerOpen_add ..⟩
  | none =>
      dsimp only [begin]
      split
      · rename_i empty
        simp only [Bool.and_eq_true, beq_iff_eq] at empty
        obtain ⟨opens, closes⟩ := plain_of_isPunctuator (by simp) empty.2
        simp [depthAfter_of_plain opens closes, headerAfter, opens, closes, empty.1]
      · exact ⟨depth_add .., headerOpen_add ..⟩

theorem through_singleton (cutter : Cutter) (before : List Token) (token : Token)
    (rest : List Token) :
    cutter.through before [token] rest = cutter.advance before token rest := by
  simp [through]

/-- A bracket and the one that closes it leave open what was open before them. -/
theorem open_of_group {cutter opened inside : Cutter} {before : List Token}
    {opening closing : Token} {bracket : Bracket} (opens : opening.opens? = some bracket)
    (closes : closing.closes? = some bracket)
    (shut : cutter.depth = 0 → cutter.headerOpen = false)
    (entered : opened.depth = Declaration.depthAfter cutter.depth opening ∧
      opened.headerOpen = cutter.headerAfter before opening)
    (kept : inside.depth = opened.depth ∧ inside.headerOpen = opened.headerOpen)
    (latest : List Token) :
    Declaration.depthAfter inside.depth closing = cutter.depth ∧
      inside.headerAfter latest closing = cutter.headerOpen := by
  have noOpener := opens?_eq_none_of_closes? closes
  have depth : inside.depth = cutter.depth + 1 := by
    rw [kept.1, entered.1]
    exact depthAfter_of_opens opens _
  have header : inside.headerOpen = (cutter.headerOpen ||
      (cutter.depth == 0 && bracket == .round && opensHeader before)) := by
    rw [kept.2, entered.2, headerAfter, opens]
  constructor
  · rw [depthAfter_of_closes closes, depth, Nat.add_sub_cancel]
  · rw [headerAfter, noOpener, closes, depth, header]
    by_cases outside : cutter.depth = 0
    · rw [shut outside]
      cases bracket <;> simp [outside]
    · simp [outside]

/-- A well-nested run leaves open what was open before it, as long as no header is
open outside all brackets. -/
theorem through_open {tokens : List Token} (nested : WellNested tokens) (cutter : Cutter)
    (shut : cutter.depth = 0 → cutter.headerOpen = false) (before rest : List Token) :
    (cutter.through before tokens rest).2.depth = cutter.depth ∧
      (cutter.through before tokens rest).2.headerOpen = cutter.headerOpen := by
  induction nested generalizing cutter before rest with
  | nil => exact ⟨rfl, rfl⟩
  | @plain token tokens opens closes tail ih =>
      obtain ⟨depth, header⟩ := cutter.advance_open before token (tokens ++ rest)
      simp only [Declaration.depthAfter, isOpener, isCloser, opens, closes,
        Option.isSome_none, Bool.false_eq_true, if_false] at depth
      simp only [headerAfter, opens, closes] at header
      have further := ih (cutter.advance before token (tokens ++ rest)).2
        (by rw [depth, header]; exact shut) (token :: before) rest
      rw [depth, header] at further
      exact further
  | @group opening closing inner tail bracket opens closes within outside ihWithin ihOutside =>
      have parts : opening :: (inner ++ closing :: tail) =
          [opening] ++ (inner ++ ([closing] ++ tail)) := rfl
      rw [parts, through_append, through_append, through_append]
      simp only [through_singleton]
      have entered := cutter.advance_open before opening (inner ++ ([closing] ++ tail) ++ rest)
      generalize cutter.advance before opening _ = opened at entered ⊢
      have kept := ihWithin opened.2
        (by simp [entered.1, depthAfter_of_opens opens])
        ([opening].reverse ++ before) ([closing] ++ tail ++ rest)
      generalize opened.2.through _ inner _ = inside at kept ⊢
      have left := open_of_group opens closes shut entered kept
        (inner.reverse ++ ([opening].reverse ++ before))
      have closed := inside.2.advance_open (inner.reverse ++ ([opening].reverse ++ before))
        closing (tail ++ rest)
      rw [left.1, left.2] at closed
      generalize inside.2.advance _ closing _ = closed' at closed ⊢
      have further := ihOutside closed'.2
        (by rw [closed.1, closed.2]; exact shut)
        ([closing].reverse ++ (inner.reverse ++ ([opening].reverse ++ before))) rest
      rw [closed.1, closed.2] at further
      exact further

/-- A semicolon outside all brackets ends what has begun, unless the word `else`
follows. -/
theorem exists_advance_semicolon {cutter : Cutter} {semicolon : Token}
    (mark : semicolon.isPunctuator ";" = true) (outside : cutter.depth = 0)
    (before : List Token) :
    ∃ statements, ∀ rest : List Token, rest.head?.any (·.isWord "else") = false →
      cutter.advance before semicolon rest =
        (statements, ⟨none, 0, cutter.headerOpen, false⟩) := by
  obtain ⟨opens, closes⟩ := plain_of_isPunctuator (by simp) mark
  unfold advance
  cases cutter.continued? before.head? semicolon with
  | some draft =>
      refine ⟨[draft.close (some semicolon)], fun rest goesOn => ?_⟩
      simp [add, opens, closes, outside, mark, goesOn]
  | none =>
      refine ⟨(cutter.ended? before.head? semicolon).toList ++ [⟨.empty, [], some semicolon⟩],
        fun rest _ => ?_⟩
      simp [begin, outside, mark]

/-- Up to a mark a run is read without looking at what follows it. -/
theorem through_congr_mark {mark : Token} (kind : mark.kind = .punctuator)
    (notAsterisk : mark.isPunctuator "*" = false) (cutter : Cutter)
    (before tokens rest rest' : List Token) :
    cutter.through before tokens (mark :: rest) =
      cutter.through before tokens (mark :: rest') := by
  induction tokens generalizing cutter before with
  | nil => rfl
  | cons token tokens ih =>
      simp only [through]
      rw [advance_congr_mark kind notAsterisk cutter before tokens rest rest', ih]

end Cutter

/-! ## What follows a semicolon -/

/-- Of the tokens before a run those matter that decide whether a statement ends
before its first and whether its first opens a header. -/
theorem cutFrom_congr {before before' : List Token} (previous : before.head? = before'.head?)
    (header : opensHeader before = opensHeader before') (cutter : Cutter)
    (tokens : List Token) : cutFrom before cutter tokens = cutFrom before' cutter tokens := by
  induction tokens generalizing before before' cutter with
  | nil => rfl
  | cons token rest ih =>
      have advance : cutter.advance before token rest = cutter.advance before' token rest := by
        unfold Cutter.advance Cutter.begin Cutter.add
        rw [previous, header]
      have further : opensHeader (token :: before) = opensHeader (token :: before') := by
        rw [opensHeader, opensHeader, previous]
      rw [cutFrom_cons, cutFrom_cons, advance, ih (by simp) further]

theorem cutFrom_of_semicolon {semicolon : Token} (mark : semicolon.isPunctuator ";" = true)
    (before tokens : List Token) :
    cutFrom (semicolon :: before) .initial tokens = split tokens := by
  have noWord : ∀ word, semicolon.isWord word = false := by
    intro word
    rw [isWord, (isPunctuator_iff.1 mark).1]
    rfl
  have noHeader : opensHeader (semicolon :: before) = opensHeader [] := by
    simp [opensHeader, isWordIn, noWord, (isPunctuator_iff.1 mark).1]
  cases tokens with
  | nil => rfl
  | cons token rest =>
      have advance : Cutter.initial.advance (semicolon :: before) token rest =
          Cutter.initial.advance [] token rest := by
        unfold Cutter.advance Cutter.begin Cutter.add
        rw [noHeader]
        rfl
      have further : opensHeader (token :: semicolon :: before) = opensHeader [token] := by
        simp [opensHeader, noWord]
      rw [split, cutFrom_cons, cutFrom_cons, advance, cutFrom_congr (by simp) further]

/-- A well-nested run that ends with a semicolon is cut to its end, and the cut then
stands as at the start of a source. -/
theorem exists_through_semicolon {lead : List Token} {semicolon : Token}
    (nested : WellNested (lead ++ [semicolon]))
    (mark : semicolon.isPunctuator ";" = true) :
    ∃ statements, ∀ rest : List Token, rest.head?.any (·.isWord "else") = false →
      Cutter.initial.through [] (lead ++ [semicolon]) rest = (statements, .initial) := by
  obtain ⟨opens, closes⟩ := plain_of_isPunctuator (by simp) mark
  have kind := (isPunctuator_iff.1 mark).1
  have notAsterisk : semicolon.isPunctuator "*" = false := by
    simp [isPunctuator, (isPunctuator_iff.1 mark).2]
  obtain ⟨outside, shut⟩ := Cutter.through_open (nested.of_append_plain opens closes)
    .initial (fun _ => rfl) [] [semicolon]
  obtain ⟨statements, reads⟩ :=
    Cutter.exists_advance_semicolon mark outside (lead.reverse ++ [])
  refine ⟨(Cutter.initial.through [] lead [semicolon]).1 ++ statements, fun rest goesOn => ?_⟩
  rw [Cutter.through_append, List.singleton_append,
    Cutter.through_congr_mark kind notAsterisk .initial [] lead rest [],
    Cutter.through_singleton, reads rest goesOn, shut]
  rfl

/-- The statements of two runs of tokens, the first of which ends with a semicolon
outside all brackets, are those of the first and then those of the second. -/
theorem split_append_of_semicolon {lead rest : List Token} {semicolon : Token}
    (nested : WellNested (lead ++ [semicolon])) (mark : semicolon.isPunctuator ";" = true)
    (goesOn : rest.head?.any (·.isWord "else") = false) :
    split (lead ++ [semicolon] ++ rest) = split (lead ++ [semicolon]) ++ split rest ∧
      ranges (lead ++ [semicolon] ++ rest) =
        ranges (lead ++ [semicolon]) ++
          (ranges rest).map (Range.shift (lead ++ [semicolon]).length) := by
  obtain ⟨statements, through⟩ := exists_through_semicolon nested mark
  have cut : ∀ rest : List Token, rest.head?.any (·.isWord "else") = false →
      split (lead ++ [semicolon] ++ rest) = statements ++ split rest := by
    intro rest goesOn
    rw [split, cutFrom_append, through rest goesOn, List.reverse_append, List.reverse_singleton,
      List.singleton_append, List.cons_append, cutFrom_of_semicolon mark]
  have alone : split (lead ++ [semicolon]) = statements := by
    have whole := cut [] rfl
    rw [List.append_nil] at whole
    rw [whole]
    exact List.append_nil _
  have whole : split (lead ++ [semicolon] ++ rest) =
      split (lead ++ [semicolon]) ++ split rest := by
    rw [cut rest goesOn, alone]
  exact ⟨whole, ranges_append_of_split whole⟩

/-- The control statement `if (a) b;` before a line that opens with a bracket. -/
theorem split_append_of_semicolon_header :
    let lead : List Token :=
      [⟨.identifier, [], "if".toList⟩, ⟨.punctuator, [' '], ['(']⟩, ⟨.identifier, [], ['a']⟩,
        ⟨.punctuator, [], [')']⟩, ⟨.identifier, [' '], ['b']⟩]
    let semicolon : Token := ⟨.punctuator, [], [';']⟩
    let rest : List Token :=
      [⟨.punctuator, ['\n'], ['(']⟩, ⟨.identifier, [], ['c']⟩, ⟨.punctuator, [], [')']⟩]
    (WellNested (lead ++ [semicolon]) ∧ semicolon.isPunctuator ";" = true ∧
        rest.head?.any (·.isWord "else") = false) ∧
      split (lead ++ [semicolon] ++ rest) = split (lead ++ [semicolon]) ++ split rest ∧
      ranges (lead ++ [semicolon] ++ rest) =
        ranges (lead ++ [semicolon]) ++
          (ranges rest).map (Range.shift (lead ++ [semicolon]).length) := by
  intro lead semicolon rest
  have nested : WellNested (lead ++ [semicolon]) := (wellNested_iff _).2 (by decide)
  have mark : semicolon.isPunctuator ";" = true := by decide
  have goesOn : rest.head?.any (·.isWord "else") = false := by decide
  exact ⟨⟨nested, mark, goesOn⟩, split_append_of_semicolon nested mark goesOn⟩

end ScriptConsole.Statement

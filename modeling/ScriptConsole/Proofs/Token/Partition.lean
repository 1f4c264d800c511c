import Mathlib.Data.List.TakeWhile
import ScriptConsole.Proofs.Token.Gaps
import ScriptConsole.Text.Search
import ScriptConsole.Token.Span

/-!
# The partition of a source

The spans of the tokens are apart and in order, each the bytes of its token, and
what lies between them is spacing and comments.  Only a block comment that the
source ends in may be left open.
-/

namespace ScriptConsole

namespace Text

/-- Cut a text before a byte; none if that is inside a character or past the end. -/
def cutAtByte? : (byte : Nat) → List Char → Option (List Char × List Char)
  | 0, cs => some ([], cs)
  | _ + 1, [] => none
  | byte + 1, c :: cs =>
      if c.utf8Size ≤ byte + 1 then
        (cutAtByte? (byte + 1 - c.utf8Size) cs).map fun parts => (c :: parts.1, parts.2)
      else none

/-- The text of a span, if both its ends are character boundaries. -/
def slice? (cs : List Char) (span : Span) : Option (List Char) :=
  (cutAtByte? span.stop cs).bind fun upTo =>
    (cutAtByte? span.start upTo.1).map (·.2)

theorem cutAtByte?_byteLength (left right : List Char) :
    cutAtByte? (byteLength left) (left ++ right) = some (left, right) := by
  induction left with
  | nil => rw [byteLength, cutAtByte?, List.nil_append]
  | cons c left ih =>
      obtain ⟨size, hsize⟩ := Nat.exists_eq_add_one_of_ne_zero (Nat.ne_of_gt c.utf8Size_pos)
      have reach : byteLength (c :: left) = size + byteLength left + 1 := by
        rw [byteLength, hsize]
        omega
      have further : size + byteLength left + 1 - c.utf8Size = byteLength left := by omega
      rw [reach, List.cons_append, cutAtByte?, if_pos (by omega), further, ih]
      rfl

theorem slice?_append (before text after : List Char) :
    slice? (before ++ text ++ after) ⟨byteLength before, byteLength before + byteLength text⟩ =
      some text := by
  rw [slice?, ← byteLength_append, cutAtByte?_byteLength, Option.bind_some,
    cutAtByte?_byteLength]
  rfl

end Text

namespace Trivia

/-- How a gap is spelled; `final` if the source ends with it. -/
inductive Spells (final : Bool) : List Char → Prop where
  | nil : Spells final []
  | spacing {c : Char} {gap : List Char} (blank : isSpacing c = true)
      (more : Spells final gap) : Spells final (c :: gap)
  /-- A line comment goes on to a line break or to the end of the source. -/
  | lineComment {body gap : List Char} (line : ∀ c ∈ body, Text.isLineBreak c = false)
      (ends : gap.head?.any Text.isLineBreak = true ∨ (gap = [] ∧ final = true))
      (more : Spells final gap) : Spells final ("//".toList ++ body ++ gap)
  /-- A block comment goes on to the first mark that closes one. -/
  | blockComment {body gap : List Char}
      (first : Text.splitFirst? "*/".toList (body ++ "*/".toList ++ gap) = some (body, gap))
      (more : Spells final gap) : Spells final ("/*".toList ++ body ++ "*/".toList ++ gap)
  /-- A block comment that is not closed goes on to the end of the source. -/
  | openComment {body : List Char} (opened : Text.containsWord "*/".toList body = false)
      (last : final = true) : Spells final ("/*".toList ++ body)

theorem isSpacing_of_isLineBreak {c : Char} (h : Text.isLineBreak c = true) :
    isSpacing c = true := by
  rw [isSpacing, Text.isBlank_of_isLineBreak h, Bool.true_or]

theorem split_lineComment (cs : List Char) :
    split .lineComment cs =
      (cs.takeWhile (!Text.isLineBreak ·) ++
          (split .between (cs.dropWhile (!Text.isLineBreak ·))).1,
        (split .between (cs.dropWhile (!Text.isLineBreak ·))).2) := by
  induction cs with
  | nil => rfl
  | cons c cs ih =>
      by_cases line : Text.isLineBreak c = true
      · have next : Mode.lineComment.next? c cs.head? = some .between := by
          rw [Mode.next?, if_pos line]
        rw [split_cons_of_next? next, List.takeWhile_cons_of_neg (by simp [line]),
          List.dropWhile_cons_of_neg (by simp [line]),
          split_between_of_isSpacing (isSpacing_of_isLineBreak line), List.nil_append]
      · have next : Mode.lineComment.next? c cs.head? = some .lineComment := by
          rw [Mode.next?, if_neg line]
        rw [split_cons_of_next? next, List.takeWhile_cons_of_pos (by simp [line]),
          List.dropWhile_cons_of_pos (by simp [line]), ih, List.cons_append]

/-- The mark that closes a block comment, at the start of a text. -/
theorem afterWord?_closing (c : Char) (cs : List Char) :
    Text.afterWord? "*/".toList (c :: cs) =
      if c = '*' ∧ cs.head? = some '/' then some cs.tail else none := by
  by_cases asterisk : c = '*'
  · cases cs with
    | nil => simp [Text.afterWord?]
    | cons slash cs => simp [Text.afterWord?, asterisk, eq_comm]
  · rw [if_neg (fun both => asterisk both.1)]
    exact if_neg (Ne.symm asterisk)

/-- The first closing mark is the first whatever follows it. -/
theorem splitFirst?_closing_append {body rest : List Char}
    (first : Text.splitFirst? "*/".toList (body ++ "*/".toList ++ rest) = some (body, rest))
    (rest' : List Char) :
    Text.splitFirst? "*/".toList (body ++ "*/".toList ++ rest') = some (body, rest') := by
  induction body with
  | nil => rfl
  | cons c body ih =>
      have ahead : (body ++ "*/".toList ++ rest').head? =
          (body ++ "*/".toList ++ rest).head? := by
        cases body <;> rfl
      simp only [List.cons_append, Text.splitFirst?, afterWord?_closing, ahead] at first ⊢
      by_cases closing : c = '*' ∧ (body ++ "*/".toList ++ rest).head? = some '/'
      · rw [if_pos closing] at first
        cases first
      · rw [if_neg closing] at first ⊢
        obtain ⟨parts, found, equal⟩ := Option.map_eq_some_iff.1 first
        simp only [Prod.mk.injEq, List.cons.injEq, true_and] at equal
        rw [ih (found.trans (congrArg some (Prod.ext equal.1 equal.2))), Option.map_some]

/-- The rest of a block comment goes to its first closing mark, or to the end. -/
theorem split_blockComment (cs : List Char) :
    split .blockComment cs =
      match Text.splitFirst? "*/".toList cs with
      | some (body, rest) =>
          (body ++ "*/".toList ++ (split .between rest).1, (split .between rest).2)
      | none => (cs, []) := by
  induction cs with
  | nil => rfl
  | cons c cs ih =>
      rw [Text.splitFirst?, afterWord?_closing]
      by_cases closing : c = '*' ∧ cs.head? = some '/'
      · obtain ⟨rfl, slash⟩ := closing
        obtain ⟨rest, rfl⟩ := List.head?_eq_some_iff.1 slash
        rfl
      · have next : Mode.blockComment.next? c cs.head? = some .blockComment := by
          rw [Mode.next?, if_neg closing]
        rw [split_cons_of_next? next, ih, if_neg closing]
        cases Text.splitFirst? "*/".toList cs <;> rfl

theorem split_between_lineComment (cs : List Char) :
    split .between ("//".toList ++ cs) =
      ("//".toList ++ cs.takeWhile (!Text.isLineBreak ·) ++
          (split .between (cs.dropWhile (!Text.isLineBreak ·))).1,
        (split .between (cs.dropWhile (!Text.isLineBreak ·))).2) := by
  have opened : split .between ("//".toList ++ cs) =
      ("//".toList ++ (split .lineComment cs).1, (split .lineComment cs).2) := rfl
  rw [opened, split_lineComment, List.append_assoc]

theorem split_between_blockComment (cs : List Char) :
    split .between ("/*".toList ++ cs) =
      match Text.splitFirst? "*/".toList cs with
      | some (body, rest) =>
          ("/*".toList ++ body ++ "*/".toList ++ (split .between rest).1,
            (split .between rest).2)
      | none => ("/*".toList ++ cs, []) := by
  have opened : split .between ("/*".toList ++ cs) =
      ("/*".toList ++ (split .blockComment cs).1, (split .blockComment cs).2) := rfl
  rw [opened, split_blockComment]
  cases Text.splitFirst? "*/".toList cs <;> rfl

/-- After a line comment the gap goes on with a line break, or the source ends. -/
theorem lineComment_ends (cs : List Char) :
    (split .between (cs.dropWhile (!Text.isLineBreak ·))).1.head?.any Text.isLineBreak = true ∨
      ((split .between (cs.dropWhile (!Text.isLineBreak ·))).1 = [] ∧
        (split .between (cs.dropWhile (!Text.isLineBreak ·))).2.isEmpty = true) := by
  cases h : cs.dropWhile (!Text.isLineBreak ·) with
  | nil => exact .inr ⟨rfl, rfl⟩
  | cons c rest =>
      have line : Text.isLineBreak c = true := by
        have head := List.head?_dropWhile_not (!Text.isLineBreak ·) cs
        rw [h] at head
        simpa using head
      rw [split_between_of_isSpacing (isSpacing_of_isLineBreak line)]
      exact .inl line

/-- Every gap is spelled as one, and as the last one if nothing follows it. -/
theorem spells_split (cs : List Char) :
    Spells (split .between cs).2.isEmpty (split .between cs).1 := by
  induction length : cs.length using Nat.strong_induction_on generalizing cs with
  | h n ih =>
      subst length
      cases cs with
      | nil => exact .nil
      | cons c cs =>
          by_cases blank : isSpacing c = true
          · rw [split_between_of_isSpacing blank]
            exact .spacing blank (ih _ (Nat.lt_succ_self _) cs rfl)
          by_cases line : c = '/' ∧ cs.head? = some '/'
          · obtain ⟨rfl, slash⟩ := line
            obtain ⟨rest, rfl⟩ := List.head?_eq_some_iff.1 slash
            have shorter : (rest.dropWhile (!Text.isLineBreak ·)).length < rest.length + 2 :=
              Nat.lt_add_right 1 (Nat.lt_succ_of_le (List.dropWhile_suffix _).length_le)
            rw [show '/' :: '/' :: rest = "//".toList ++ rest from rfl,
              split_between_lineComment rest]
            refine .lineComment (fun c mem => ?_) (lineComment_ends rest)
              (ih _ shorter _ rfl)
            simpa using List.mem_takeWhile_imp mem
          by_cases block : c = '/' ∧ cs.head? = some '*'
          · obtain ⟨rfl, asterisk⟩ := block
            obtain ⟨rest, rfl⟩ := List.head?_eq_some_iff.1 asterisk
            rw [show '/' :: '*' :: rest = "/*".toList ++ rest from rfl,
              split_between_blockComment rest]
            cases closing : Text.splitFirst? "*/".toList rest with
            | none => exact .openComment (by rw [Text.containsWord, closing]; rfl) rfl
            | some parts =>
                obtain ⟨body, after⟩ := parts
                have shorter : after.length < rest.length + 2 :=
                  Nat.lt_add_right 2 (Text.splitFirst?_length_lt (by simp) closing)
                rw [Text.eq_append_of_splitFirst? closing] at closing
                exact .blockComment (splitFirst?_closing_append closing _)
                  (ih _ shorter after rfl)
          · have visible : Mode.between.next? c cs.head? = none := by
              rw [Mode.next?, if_neg blank, if_neg line, if_neg block]
            rw [split_cons_of_next?_eq_none visible]
            exact .nil

end Trivia

namespace Scan

/-- From byte `start` on a source is gaps and tokens in turn: a gap and a token on its
span as long as there are tokens, and one more gap. -/
inductive Partition (source : List Char) : (start : Nat) → List Token → List Span → Prop where
  | last {start : Nat} {gap : List Char}
      (slice : Text.slice? source ⟨start, Text.byteLength source⟩ = some gap)
      (spells : Trivia.Spells true gap) : Partition source start [] []
  | token {start : Nat} {gap : List Char} {token : Token} {span : Span}
      {tokens : List Token} {spans : List Span}
      (order : start ≤ span.start) (slice : Text.slice? source ⟨start, span.start⟩ = some gap)
      (spells : Trivia.Spells false gap) (nonempty : span.start < span.stop)
      (text : Text.slice? source span = some token.text)
      (line : token.startsLine = gap.any Text.isLineBreak)
      (more : Partition source span.stop tokens spans) :
      Partition source start (token :: tokens) (span :: spans)

theorem Partition.pairwise {source : List Char} {start : Nat} {tokens : List Token}
    {spans : List Span} (partition : Partition source start tokens spans) :
    (∀ span ∈ spans, start ≤ span.start) ∧ spans.Pairwise (·.stop ≤ ·.start) := by
  induction partition with
  | last => simp
  | token order slice spells nonempty text line more ih =>
      rw [List.pairwise_cons, List.forall_mem_cons]
      refine ⟨⟨order, fun span mem => ?_⟩, ih.1, ih.2⟩
      have further := ih.1 span mem
      omega

/-- A scan that begins after `lead` is a partition of what follows it. -/
theorem partition_after (lead : List Char) (previous : Option Token) (cs : List Char) :
    Partition (lead ++ cs) (Text.byteLength lead) (after previous cs).tokens
      (Token.spans (Text.byteLength lead) (after previous cs).tokens) := by
  fun_induction after previous cs generalizing lead with
  | case1 previous cs noToken =>
      have whole := Trivia.split_append .between cs
      have spells := Trivia.spells_split cs
      rw [noToken] at whole spells
      rw [List.append_nil] at whole
      rw [whole] at spells
      refine .last ?_ spells
      have slice := Text.slice?_append lead cs []
      rwa [List.append_nil, ← Text.byteLength_append] at slice
  | case2 previous cs c rest begins lexeme token scan ih =>
      have whole := Trivia.split_append .between cs
      have spells := Trivia.spells_split cs
      have read : lexeme.more ++ lexeme.rest = rest := Lexeme.read_append previous c rest
      rw [begins] at whole spells
      have parts : lead ++ cs = lead ++ token.gap ++ token.text ++ lexeme.rest := by
        simp only [token, List.append_assoc, List.cons_append, read, whole]
      rw [Token.spans, parts]
      refine .token (Nat.le_add_right _ _) ?_ spells ?_ ?_ rfl ?_
      · have slice := Text.slice?_append lead token.gap (token.text ++ lexeme.rest)
        rwa [← List.append_assoc] at slice
      · have size := c.utf8Size_pos
        simp only [token, Text.byteLength]
        omega
      · have slice := Text.slice?_append (lead ++ token.gap) token.text lexeme.rest
        rwa [Text.byteLength_append] at slice
      · have further := ih (lead ++ token.gap ++ token.text)
        rwa [Text.byteLength_append, Text.byteLength_append] at further

end Scan

/-- The tokens of every source and their spans are a partition of it. -/
theorem partition_tokenize (source : List Char) :
    Scan.Partition source 0 (tokenize source) (Token.spans 0 (tokenize source)) :=
  Scan.partition_after [] none source

end ScriptConsole

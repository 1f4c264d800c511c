import ScriptConsole.Proofs.Token.Gaps
import ScriptConsole.Proofs.Token.Reading
import ScriptConsole.Proofs.Token.Scanning

/-!
# Scanning a run of tokens again

A run of tokens that was scanned from one source is scanned from another one that
spells it, if the token before it and what follows it do not interfere.  Gaps
may differ, so that tokens are compared without them.
-/

namespace ScriptConsole

namespace Token

/-- A token without the gap before it. -/
def bare (token : Token) : Token :=
  { token with gap := [] }

@[simp] theorem kind_bare (token : Token) : token.bare.kind = token.kind := rfl

@[simp] theorem text_bare (token : Token) : token.bare.text = token.text := rfl

@[simp] theorem opens?_bare (token : Token) : token.bare.opens? = token.opens? := rfl

@[simp] theorem closes?_bare (token : Token) : token.bare.closes? = token.closes? := rfl

@[simp] theorem bare_bare (token : Token) : token.bare.bare = token.bare := rfl

/-- Regular expressions and the punctuators that open with a slash. -/
def isSlash (token : Token) : Bool :=
  token.kind == .regex || token.isPunctuatorIn ["/", "/="]

end Token

open Token

/-- Of the token before it a token asks only how a slash is read. -/
theorem Lexeme.read_congr {previous previous' : Option Token}
    (same : allowsRegex previous' = allowsRegex previous) (c : Char) (cs : List Char) :
    read previous' c cs = read previous c cs := by
  rw [read, read, same]

namespace Scan

/-- The tokens of a source after the token `previous`, without their gaps. -/
def bareAfter (previous : Option Token) (cs : List Char) : List Token :=
  (after previous cs).tokens.map bare

theorem after_congr {previous previous' : Option Token}
    (h : Lexeme.allowsRegex previous' = Lexeme.allowsRegex previous) (cs : List Char) :
    after previous' cs = after previous cs := by
  rw [after, after.eq_1 previous]
  split
  · rfl
  · simp only [Lexeme.read_congr h]

theorem bareAfter_congr {previous previous' : Option Token}
    (h : Lexeme.allowsRegex previous' = Lexeme.allowsRegex previous) (cs : List Char) :
    bareAfter previous' cs = bareAfter previous cs := by
  rw [bareAfter, bareAfter, after_congr h]

/-- A token that opens a source, whatever the gap before it. -/
theorem bareAfter_of_split {cs gap rest : List Char} {c : Char}
    (h : Trivia.split .between cs = (gap, c :: rest)) (previous : Option Token) {kind : TokenKind}
    {more rest' : List Char} (read : Lexeme.read previous c rest = ⟨kind, more, rest'⟩) :
    bareAfter previous cs =
      ⟨kind, [], c :: more⟩ :: bareAfter (some ⟨kind, [], c :: more⟩) rest' := by
  rw [bareAfter, after_of_split_eq_cons h previous read, List.map_cons]
  have allows : Lexeme.allowsRegex (some ⟨kind, gap, c :: more⟩) =
      Lexeme.allowsRegex (some ⟨kind, [], c :: more⟩) := rfl
  rw [after_congr allows]
  rfl

theorem bareAfter_append_of_whole {gap : List Char} (whole : Trivia.Whole gap)
    (previous : Option Token) (cs : List Char) :
    bareAfter previous (gap ++ cs) = bareAfter previous cs := by
  have hgap := whole cs
  cases hrest : (Trivia.split .between cs).2 with
  | nil =>
      have hrest' : (Trivia.split .between (gap ++ cs)).2 = [] := by rw [hgap, hrest]
      rw [bareAfter, bareAfter, after_of_split_eq_nil hrest, after_of_split_eq_nil hrest']
  | cons c rest =>
      rw [hrest] at hgap
      rw [bareAfter_of_split hgap previous rfl,
        bareAfter_of_split (Prod.ext rfl hrest) previous rfl]

end Scan

/-- The tokens `tokens` as they were read one after another after the token
`previous`, up to the source `rest`. -/
inductive Scanned : Option Token → List Token → List Char → Prop where
  | nil (previous : Option Token) (rest : List Char) : Scanned previous [] rest
  | cons {previous : Option Token} {kind : TokenKind} {gap more rest : List Char} {c : Char}
      {tokens : List Token}
      (split : Trivia.split .between (gap ++ c :: (more ++ (sourceOf tokens ++ rest))) =
        (gap, c :: (more ++ (sourceOf tokens ++ rest))))
      (read : Lexeme.read previous c (more ++ (sourceOf tokens ++ rest)) =
        ⟨kind, more, sourceOf tokens ++ rest⟩)
      (tail : Scanned (some ⟨kind, gap, c :: more⟩) tokens rest) :
      Scanned previous (⟨kind, gap, c :: more⟩ :: tokens) rest

namespace Scanned

theorem of_after (previous : Option Token) (cs : List Char) :
    Scanned previous (Scan.after previous cs).tokens (Scan.after previous cs).trailing := by
  fun_induction Scan.after previous cs with
  | case1 previous cs h => exact .nil previous _
  | case2 previous cs c rest h lexeme token scan ih =>
      have hcs := Trivia.split_append .between cs
      have hrest := Scan.source_after (some token) lexeme.rest
      have hread := Lexeme.read_append previous c rest
      have hscan : sourceOf scan.tokens ++ scan.trailing = lexeme.rest := hrest
      refine .cons ?_ ?_ ih
      · rw [hscan, hread, ← h, hcs]
      · rw [hscan, hread]

theorem getLast?_cons_or (token : Token) (tokens : List Token) (previous : Option Token) :
    (token :: tokens).getLast?.or previous = tokens.getLast?.or (some token) := by
  rw [List.getLast?_cons]
  cases tokens.getLast? <;> rfl

theorem append_iff {previous : Option Token} {left right : List Token} {rest : List Char} :
    Scanned previous (left ++ right) rest ↔
      Scanned previous left (sourceOf right ++ rest) ∧
        Scanned (left.getLast?.or previous) right rest := by
  induction left generalizing previous with
  | nil => exact ⟨fun scanned => ⟨.nil _ _, scanned⟩, fun h => h.2⟩
  | cons token left ih =>
      have source : sourceOf (left.append right) ++ rest =
          sourceOf left ++ (sourceOf right ++ rest) := by
        simp
      rw [getLast?_cons_or]
      constructor
      · intro scanned
        cases scanned with
        | cons split read tail =>
            rw [source] at split read
            exact ⟨.cons split read (ih.1 tail).1, (ih.1 tail).2⟩
      · rintro ⟨scanned, hright⟩
        cases scanned with
        | cons split read tail =>
            rw [← source] at split read
            exact .cons split read (ih.2 ⟨tail, hright⟩)

theorem tail {previous : Option Token} {token : Token} {tokens : List Token}
    {rest : List Char} (scanned : Scanned previous (token :: tokens) rest) :
    Scanned (some token) tokens rest := by
  cases scanned with
  | cons split read tail => exact tail

theorem exists_read {previous : Option Token} {tokens : List Token} {rest : List Char}
    (scanned : Scanned previous tokens rest) {token : Token} (mem : token ∈ tokens) :
    ∃ before c more after, token.text = c :: more ∧
      Lexeme.read before c (more ++ after) = ⟨token.kind, more, after⟩ := by
  induction scanned with
  | nil previous rest => cases mem
  | cons split read tail ih =>
      rcases List.mem_cons.1 mem with rfl | mem
      · exact ⟨_, _, _, _, rfl, read⟩
      · exact ih mem

theorem whole_gap {previous : Option Token} {tokens : List Token} {rest : List Char}
    (scanned : Scanned previous tokens rest) {token : Token} (mem : token ∈ tokens) :
    Trivia.Whole token.gap := by
  induction scanned with
  | nil previous rest => cases mem
  | cons split read tail ih =>
      rcases List.mem_cons.1 mem with rfl | mem
      · exact Trivia.whole_of_split split
      · exact ih mem

theorem whole_gapOf {previous : Option Token} {tokens : List Token} {rest : List Char}
    (scanned : Scanned previous tokens rest) : Trivia.Whole (gapOf tokens) := by
  cases tokens with
  | nil => exact Trivia.whole_nil
  | cons token tokens => exact scanned.whole_gap List.mem_cons_self

end Scanned

theorem scanned_tokenize (source : List Char) :
    Scanned none (tokenize source) (Scan.ofSource source).trailing :=
  .of_after none source

theorem split_trailing_after (previous : Option Token) (cs : List Char) :
    (Trivia.split .between (Scan.after previous cs).trailing).2 = [] := by
  fun_induction Scan.after previous cs with
  | case1 previous cs h =>
      have whole := Trivia.split_append .between cs
      rw [h, List.append_nil] at whole
      rw [whole, h]
  | case2 previous cs c rest h lexeme token scan ih => exact ih

/-- A gap opens with a character at which every token ends, or with the slash of a
comment. -/
theorem mem_barriers_or_eq_slash {c : Char} {gap cs rest : List Char}
    (h : Trivia.split .between (c :: cs) = (c :: gap, rest)) : c ∈ barriers ∨ c = '/' := by
  obtain ⟨next, hnext, -⟩ := Trivia.next?_of_split h
  simp only [Trivia.Mode.next?] at hnext
  split at hnext
  · rename_i spacing
    exact .inl (mem_barriers_of_isSpacing spacing)
  · split at hnext
    · rename_i slash
      exact .inr slash.1
    · split at hnext
      · rename_i slash
        exact .inr slash.1
      · cases hnext

theorem alike_of_split {gap cs rest : List Char} (nonempty : gap ≠ [])
    (h : Trivia.split .between (gap ++ cs) = (gap, rest)) (left right : List Char) :
    Alike (gap ++ left) (gap ++ right) := by
  cases gap with
  | nil => exact absurd rfl nonempty
  | cons c gap =>
      rcases mem_barriers_or_eq_slash h with barrier | rfl
      · exact .barrier barrier _ _
      · exact .slash _ _

theorem Scanned.alike_gap {previous : Option Token} {token : Token} {tokens : List Token}
    {rest : List Char} (scanned : Scanned previous (token :: tokens) rest)
    (nonempty : token.gap ≠ []) (left right : List Char) :
    Alike (token.gap ++ left) (token.gap ++ right) := by
  cases scanned with
  | cons split read tail => exact alike_of_split nonempty split left right

theorem Scanned.allowsRegex_of_regex {previous : Option Token} {token : Token}
    {tokens : List Token} {rest : List Char}
    (scanned : Scanned previous (token :: tokens) rest) (regex : token.kind = .regex) :
    Lexeme.allowsRegex previous = true := by
  cases scanned with
  | @cons _ kind gap more _ c _ split read tail =>
      obtain rfl : kind = .regex := regex
      cases Lexeme.Reads.of_read read with
      | regex opens allows parts => exact allows

/-- Every slash that is a punctuator, or opens one, stands where no regular expression
may. -/
def Divides : Option Token → List Token → Prop
  | _, [] => True
  | previous, token :: tokens =>
      (token.isPunctuatorIn ["/", "/="] = true → Lexeme.allowsRegex previous = false) ∧
        Divides (some token) tokens

theorem divides_append_iff {previous : Option Token} {left right : List Token} :
    Divides previous (left ++ right) ↔
      Divides previous left ∧ Divides (left.getLast?.or previous) right := by
  induction left generalizing previous with
  | nil => exact ⟨fun divides => ⟨trivial, divides⟩, fun h => h.2⟩
  | cons token left ih =>
      rw [Scanned.getLast?_cons_or, List.cons_append, Divides, ih, Divides, and_assoc]

/-- What is read from a slash is a regular expression or one of two punctuators. -/
theorem isSlash_of_read {previous : Option Token} {kind : TokenKind} {more cs rest : List Char}
    (h : Lexeme.read previous '/' cs = ⟨kind, more, rest⟩) (gap : List Char) :
    kind = .regex ∨ kind = .punctuator ∧
      (⟨kind, gap, '/' :: more⟩ : Token).isPunctuatorIn ["/", "/="] = true := by
  cases Lexeme.Reads.of_read h with
  | regex => exact .inl rfl
  | slash opens allows noBody alone =>
      subst alone
      exact .inr ⟨rfl, rfl⟩
  | mark noRegex read =>
      refine .inr ⟨rfl, ?_⟩
      simp only [Lexeme.punctuator, Lexeme.mk.injEq] at read
      obtain ⟨-, rfl, rfl⟩ := read
      by_cases zero : Lexeme.punctuatorReach '/' cs = 0
      · rw [zero]
        rfl
      · obtain ⟨mark, mem, hprefix, hhead, hlength⟩ :=
          Lexeme.exists_punctuator_of_reach zero
        have only : ∀ mark ∈ Lexeme.punctuators, mark.toList.head? = some '/' →
            mark.toList = ['/', '='] := by decide
        rw [only mark mem hhead] at hprefix hlength
        obtain ⟨rest, hrest⟩ := hprefix
        have one : Lexeme.punctuatorReach '/' cs = 1 := by
          simp only [List.length_cons, List.length_nil] at hlength
          omega
        rw [one, ← (List.cons.inj hrest).2]
        rfl
  | name opens => cases opens
  | number opens => cases opens
  | quoted opens => simp at opens
  | template opens => cases opens

/-- What may follow a run in place of the source that followed it. -/
def Apart (tokens : List Token) (rest rest' : List Char) : Prop :=
  (∃ last ∈ tokens.getLast?, last.isCloser = true) ∨ Alike rest rest'

theorem exists_text_of_isCloser {token : Token} (h : token.isCloser = true) :
    ∃ bracket : Bracket, token.kind = .punctuator ∧ token.text = [bracket.closing] := by
  obtain ⟨bracket, closes⟩ := Option.isSome_iff_exists.1 h
  exact ⟨bracket, closes?_eq_some_iff.1 closes⟩

theorem mem_getLast?_of_cons {token last : Token} {tokens : List Token}
    (h : last ∈ (token :: tokens).getLast?) (more : tokens ≠ []) : last ∈ tokens.getLast? := by
  obtain ⟨next, others, rfl⟩ := List.exists_cons_of_ne_nil more
  exact h

theorem Apart.alike {token : Token} {tokens : List Token} {rest rest' : List Char}
    (apart : Apart (token :: tokens) rest rest') (more : tokens ≠ []) :
    Alike (sourceOf tokens ++ rest) (sourceOf tokens ++ rest') := by
  rcases apart with ⟨last, hlast, closer⟩ | alike
  · obtain ⟨bracket, -, htext⟩ := exists_text_of_isCloser closer
    obtain ⟨before, rfl⟩ := List.getLast?_eq_some_iff.1 (mem_getLast?_of_cons hlast more)
    have barrier : bracket.closing ∈ barriers := by cases bracket <;> decide
    have ends := (Alike.barrier barrier (bracket.closing :: rest) rest').append
      (sourceOf before ++ last.gap)
    simpa [htext] using ends
  · exact alike.append _

theorem Apart.tail {token : Token} {tokens : List Token} {rest rest' : List Char}
    (apart : Apart (token :: tokens) rest rest') (more : tokens ≠ []) :
    Apart tokens rest rest' := by
  refine apart.imp_left ?_
  rintro ⟨last, hlast, closer⟩
  exact ⟨last, mem_getLast?_of_cons hlast more, closer⟩

theorem next?_eq_none_of_visible {c : Char} (visible : Trivia.isSpacing c = false ∧ c ≠ '/')
    (ahead : Option Char) : Trivia.Mode.next? .between c ahead = none := by
  simp [Trivia.Mode.next?, visible]

/-- A character that opens no comment before a source opens none before one alike. -/
theorem next?_append_of_alike {c : Char} {more rest rest' : List Char}
    (h : Trivia.Mode.next? .between c (more ++ rest).head? = none) (alike : Alike rest rest') :
    Trivia.Mode.next? .between c (more ++ rest').head? = none := by
  cases more with
  | cons d more => exact h
  | nil =>
      have visible := Trivia.isSpacing_eq_false_of_next? h
      cases alike with
      | cons d tail => exact h
      | slash left right => exact h
      | stop left => simp [Trivia.Mode.next?, visible]
      | barrier hd left right =>
          have noMark : ∀ d ∈ barriers, d ≠ '/' ∧ d ≠ '*' := forall_mem_of_all (by decide)
          simp [Trivia.Mode.next?, visible, noMark _ hd]

/-- A token in a run is read the same before what follows it in another source. -/
theorem bareAfter_cons {previous previous' : Option Token} {kind : TokenKind}
    {gap more rest rest' : List Char} {c : Char}
    (split : Trivia.split .between (gap ++ c :: (more ++ rest)) = (gap, c :: (more ++ rest)))
    (read : Lexeme.read previous c (more ++ rest) = ⟨kind, more, rest⟩)
    (follows : (⟨kind, gap, c :: more⟩ : Token).isCloser = true ∨ Alike rest rest')
    (closed : rest = [] → Lexeme.isOpenLiteral kind (c :: more) = false)
    (divides : (⟨kind, gap, c :: more⟩ : Token).isPunctuatorIn ["/", "/="] = true →
      Lexeme.allowsRegex previous = false)
    (slash : (⟨kind, gap, c :: more⟩ : Token).isSlash = true →
      Lexeme.allowsRegex previous' = Lexeme.allowsRegex previous) :
    Scan.bareAfter previous' (gap ++ c :: (more ++ rest')) =
      ⟨kind, [], c :: more⟩ :: Scan.bareAfter (some ⟨kind, gap, c :: more⟩) rest' := by
  have whole := Trivia.whole_of_split split
  have visible := Trivia.next?_eq_none_after_split split
  have congr : Scan.bareAfter (some ⟨kind, gap, c :: more⟩) rest' =
      Scan.bareAfter (some ⟨kind, [], c :: more⟩) rest' := by
    have allows : Lexeme.allowsRegex (some ⟨kind, gap, c :: more⟩) =
        Lexeme.allowsRegex (some ⟨kind, [], c :: more⟩) := rfl
    exact Scan.bareAfter_congr allows rest'
  rw [Scan.bareAfter_append_of_whole whole, congr]
  rcases follows with closer | alike
  · obtain ⟨bracket, hkind, htext⟩ := exists_text_of_isCloser closer
    simp only [List.cons.injEq] at hkind htext
    obtain ⟨rfl, rfl⟩ := htext
    have lone : bracket.closing ∈ Lexeme.loneMarks := by cases bracket <;> decide
    have alone := Lexeme.read_of_mem_loneMarks lone previous' rest'
    have visible' : Trivia.Mode.next? .between bracket.closing rest'.head? = none := by
      cases bracket <;> rfl
    rw [hkind]
    exact Scan.bareAfter_of_split (Trivia.split_cons_of_next?_eq_none visible') previous' alone
  · have read' : Lexeme.read previous' c (more ++ rest') = ⟨kind, more, rest'⟩ := by
      refine Lexeme.read_append_of_alike read alike closed ?_ ?_
      · rintro rfl
        rcases isSlash_of_read read gap with rfl | ⟨-, mark⟩
        · exact slash rfl
        · exact slash (by rw [isSlash, mark, Bool.or_true])
      · rintro rfl hkind
        rcases isSlash_of_read read gap with regex | ⟨-, mark⟩
        · rw [regex] at hkind
          cases hkind
        · exact divides mark
    exact Scan.bareAfter_of_split
      (Trivia.split_cons_of_next?_eq_none (next?_append_of_alike visible alike)) previous' read'

/-- A run of tokens is scanned again from another source that spells it. -/
theorem bareAfter_run {previous previous' : Option Token} {tokens : List Token}
    {rest rest' : List Char} (scanned : Scanned previous tokens rest)
    (divides : Divides previous tokens) (apart : Apart tokens rest rest')
    (closed : rest = [] → ∀ last ∈ tokens.getLast?,
      Lexeme.isOpenLiteral last.kind last.text = false)
    (slash : ∀ first ∈ tokens.head?, first.isSlash = true →
      Lexeme.allowsRegex previous' = Lexeme.allowsRegex previous) :
    Scan.bareAfter previous' (sourceOf tokens ++ rest') =
      tokens.map bare ++ Scan.bareAfter (tokens.getLast?.or previous') rest' := by
  induction scanned generalizing previous' with
  | nil previous rest => rfl
  | @cons previous kind gap more rest c tokens split read tail ih =>
      rw [Scanned.getLast?_cons_or, sourceOf_cons, List.append_assoc, List.append_assoc,
        List.cons_append, List.map_cons, List.cons_append]
      by_cases more' : tokens = []
      · subst more'
        refine bareAfter_cons split read ?_ ?_ divides.1 (slash _ rfl)
        · exact apart.imp_left fun ⟨last, hlast, closer⟩ => by
            cases hlast
            exact closer
        · exact fun nothing => closed nothing _ rfl
      · have nonempty : sourceOf tokens ++ rest ≠ [] := by
          cases tail with
          | nil => exact absurd rfl more'
          | cons => simp
        rw [bareAfter_cons split read (.inr (apart.alike more')) (absurd · nonempty) divides.1
          (slash _ rfl)]
        refine congrArg _ (ih divides.2 (apart.tail more') ?_ fun _ _ _ => rfl)
        intro nothing last hlast
        refine closed nothing last ?_
        rw [List.getLast?_cons, hlast]
        rfl

theorem bareAfter_textOf {previous previous' : Option Token} {tokens : List Token}
    {rest rest' : List Char} (scanned : Scanned previous tokens rest)
    (divides : Divides previous tokens) (apart : Apart tokens rest rest')
    (closed : rest = [] → ∀ last ∈ tokens.getLast?,
      Lexeme.isOpenLiteral last.kind last.text = false)
    (slash : ∀ first ∈ tokens.head?, first.isSlash = true →
      Lexeme.allowsRegex previous' = Lexeme.allowsRegex previous) :
    Scan.bareAfter previous' (textOf tokens ++ rest') =
      tokens.map bare ++ Scan.bareAfter (tokens.getLast?.or previous') rest' := by
  rw [← bareAfter_run scanned divides apart closed slash, ← gapOf_append_textOf,
    List.append_assoc, Scan.bareAfter_append_of_whole scanned.whole_gapOf]

theorem sourceOf_eq_nil_iff_of_scanned {previous : Option Token} {tokens : List Token}
    {rest : List Char} (scanned : Scanned previous tokens rest) :
    sourceOf tokens = [] ↔ tokens = [] := by
  cases scanned <;> simp

theorem Scanned.eq_nil_of_isOpenLiteral {previous : Option Token} {left right : List Token}
    {literal : Token} {rest : List Char}
    (scanned : Scanned previous (left ++ literal :: right) rest)
    (opened : Lexeme.isOpenLiteral literal.kind literal.text = true) :
    right = [] ∧ rest = [] := by
  cases (append_iff.1 scanned).2 with
  | cons split read tail =>
      obtain ⟨-, nothing, -⟩ := Lexeme.read_append_of_isOpenLiteral read opened
      rw [List.append_eq_nil_iff] at nothing
      exact ⟨(sourceOf_eq_nil_iff_of_scanned tail).1 nothing.1, nothing.2⟩

/-- Only the last token of a run may be a literal that is not closed. -/
theorem Scanned.isOpenLiteral_of_mem_dropLast {previous : Option Token} {tokens : List Token}
    {rest : List Char} (scanned : Scanned previous tokens rest) {token : Token}
    (mem : token ∈ tokens.dropLast) : Lexeme.isOpenLiteral token.kind token.text = false := by
  apply Bool.eq_false_iff.2
  intro opened
  obtain ⟨left, right, hsplit⟩ := List.append_of_mem mem
  have nonempty : tokens ≠ [] := by
    rintro rfl
    cases mem
  rw [← List.dropLast_concat_getLast nonempty, hsplit, List.append_assoc,
    List.cons_append] at scanned
  have := (scanned.eq_nil_of_isOpenLiteral opened).1
  simp at this

/-- The tokens before the last one of a run are scanned again whatever becomes of the
last one. -/
theorem exists_bareAfter_textOf_concat {previous previous' : Option Token}
    {tokens : List Token} {last : Token} {rest rest' : List Char}
    (scanned : Scanned previous (tokens ++ [last]) rest)
    (divides : Divides previous (tokens ++ [last])) (alike : Alike rest rest')
    (slash : ∀ first ∈ tokens.head?, first.isSlash = true →
      Lexeme.allowsRegex previous' = Lexeme.allowsRegex previous) :
    ∃ previous'', Scan.bareAfter previous' (textOf (tokens ++ [last]) ++ rest') =
      tokens.map bare ++ Scan.bareAfter previous'' (last.text ++ rest') := by
  obtain ⟨before, lastScanned⟩ := Scanned.append_iff.1 scanned
  have whole : Trivia.Whole last.gap := lastScanned.whole_gap List.mem_cons_self
  cases tokens with
  | nil => exact ⟨previous', by simp [textOf]⟩
  | cons first others =>
      have closed : ∀ token ∈ first :: others,
          Lexeme.isOpenLiteral token.kind token.text = false := by
        intro token mem
        refine scanned.isOpenLiteral_of_mem_dropLast ?_
        rwa [List.dropLast_concat]
      have run := bareAfter_textOf before (divides_append_iff.1 divides).1
        (.inr (alike.append (sourceOf [last])))
        (fun _ last hlast => closed last (List.mem_of_getLast? hlast)) slash
      refine ⟨(first :: others).getLast?.or previous', ?_⟩
      rw [sourceOf_cons, sourceOf_nil, List.append_nil, List.append_assoc,
        Scan.bareAfter_append_of_whole whole] at run
      rw [← run]
      simp [textOf]

/-- A literal that is not closed takes at least the first character of what follows it. -/
theorem Scanned.bareAfter_of_isOpenLiteral {previous : Option Token} {literal : Token}
    {rest : List Char} (scanned : Scanned previous [literal] rest)
    (opened : Lexeme.isOpenLiteral literal.kind literal.text = true) (d : Char)
    (cs : List Char) :
    (∃ c ∈ Lexeme.literalMarks, ∃ more, literal.text = c :: more) ∧
      ∃ taken left, cs = taken ++ left ∧ ∀ previous',
      Scan.bareAfter previous' (literal.text ++ d :: cs) =
        ⟨literal.kind, [], literal.text ++ d :: taken⟩ ::
          Scan.bareAfter (some ⟨literal.kind, [], literal.text ++ d :: taken⟩) left := by
  cases scanned with
  | cons split read tail =>
      obtain ⟨isMark, -, longer⟩ := Lexeme.read_append_of_isOpenLiteral read opened
      obtain ⟨taken, left, hcs, read'⟩ := longer d cs
      refine ⟨⟨_, isMark, _, rfl⟩, taken, left, hcs, fun previous' => ?_⟩
      refine Scan.bareAfter_of_split (Trivia.split_cons_of_next?_eq_none ?_) previous'
        (read' previous')
      have visible : ∀ c ∈ Lexeme.literalMarks, Trivia.isSpacing c = false ∧ c ≠ '/' :=
        forall_mem_of_all (by decide)
      exact next?_eq_none_of_visible (visible _ isMark) _

namespace Scan

theorem bareAfter_lone {c : Char} (h : c ∈ Lexeme.loneMarks) (previous : Option Token)
    (cs : List Char) :
    bareAfter previous (c :: cs) =
      ⟨.punctuator, [], [c]⟩ :: bareAfter (some ⟨.punctuator, [], [c]⟩) cs := by
  have visible : ∀ c ∈ Lexeme.loneMarks, Trivia.isSpacing c = false ∧ c ≠ '/' :=
    forall_mem_of_all (by decide)
  have next := next?_eq_none_of_visible (visible c h) cs.head?
  exact bareAfter_of_split (Trivia.split_cons_of_next?_eq_none next) previous
    (Lexeme.read_of_mem_loneMarks h previous cs)

theorem bareAfter_space (previous : Option Token) (cs : List Char) :
    bareAfter previous (' ' :: cs) = bareAfter previous cs :=
  bareAfter_append_of_whole Trivia.whole_space previous cs

end Scan

def IsName (text : List Char) : Prop :=
  ∃ c more, text = c :: more ∧ Lexeme.opensIdentifier c more = true ∧
    ∀ d ∈ more, Text.isIdentContinue d = true

theorem isName_of_all {c : Char} {more : List Char} (start : Lexeme.opensIdentifier c more = true)
    (all : more.all Text.isIdentContinue = true) : IsName (c :: more) :=
  ⟨c, more, rfl, start, List.all_eq_true.1 all⟩

theorem opensIdentifier_append {c : Char} {more : List Char}
    (h : Lexeme.opensIdentifier c more = true) (rest : List Char) :
    Lexeme.opensIdentifier c (more ++ rest) = true := by
  cases more with
  | cons d more => exact h
  | nil =>
      have start : Text.isIdentStart c = true := by simpa [Lexeme.opensIdentifier] using h
      simp [Lexeme.opensIdentifier, start]

theorem takeWhile_of_read_identifier {previous : Option Token} {c : Char}
    {cs more rest : List Char} (h : Lexeme.read previous c cs = ⟨.identifier, more, rest⟩) :
    Lexeme.opensIdentifier c cs = true ∧ cs.takeWhile Text.isIdentContinue = more := by
  cases Lexeme.Reads.of_read h with
  | name opens text => exact ⟨opens, text⟩

theorem Scanned.isName {previous : Option Token} {tokens : List Token} {rest : List Char}
    (scanned : Scanned previous tokens rest) {token : Token} (mem : token ∈ tokens)
    (identifier : token.isIdentifier = true) : IsName token.text := by
  obtain ⟨previous, c, more, rest, text, read⟩ := scanned.exists_read mem
  rw [show token.kind = .identifier by simpa [isIdentifier] using identifier] at read
  obtain ⟨opens, taken⟩ := takeWhile_of_read_identifier read
  rw [text]
  refine ⟨c, more, rfl, ?_, (of_takeWhile_append taken).1⟩
  have ended : Alike rest [';'] := .barrier (by decide) _ _
  rw [← Lexeme.opensIdentifier_append_of_alike read ended] at opens
  cases more with
  | cons d more => exact opens
  | nil =>
      have noStart : Text.isIdentStart ';' = false := by decide
      simpa [Lexeme.opensIdentifier, noStart] using opens

theorem next?_eq_none_of_opensIdentifier {c : Char} {cs : List Char}
    (h : Lexeme.opensIdentifier c cs = true) (ahead : Option Char) :
    Trivia.Mode.next? .between c ahead = none := by
  refine next?_eq_none_of_visible ?_ ahead
  simp only [Lexeme.opensIdentifier, Bool.or_eq_true, Bool.and_eq_true, beq_iff_eq] at h
  rcases h with start | ⟨rfl, -⟩
  · constructor
    · apply Bool.eq_false_iff.2
      intro spacing
      have := isIdentContinue_of_mem_barriers (mem_barriers_of_isSpacing spacing)
      rw [Text.isIdentContinue_of_isIdentStart start] at this
      cases this
    · rintro rfl
      cases start
  · exact ⟨rfl, by decide⟩

/-- A name before a character that ends it is scanned as an identifier. -/
theorem Scan.bareAfter_name {text : List Char} (name : IsName text) {c : Char}
    (h : c ∈ barriers) (previous : Option Token) (cs : List Char) :
    bareAfter previous (text ++ c :: cs) =
      ⟨.identifier, [], text⟩ :: bareAfter (some ⟨.identifier, [], text⟩) (c :: cs) := by
  obtain ⟨first, more, rfl, opens, all⟩ := name
  have opens' := opensIdentifier_append opens (c :: cs)
  have stop : ∀ d ∈ (c :: cs).head?, Text.isIdentContinue d = false := by
    rintro d ⟨⟩
    exact isIdentContinue_of_mem_barriers h
  obtain ⟨htake, hdrop⟩ := takeWhile_append_of_head? all stop
  have read : Lexeme.read previous first (more ++ c :: cs) = ⟨.identifier, more, c :: cs⟩ := by
    rw [Lexeme.read, if_pos opens', htake, hdrop]
  exact bareAfter_of_split
    (Trivia.split_cons_of_next?_eq_none (next?_eq_none_of_opensIdentifier opens' _)) previous read

end ScriptConsole

import ScriptConsole.Proofs.Token.Partition
import ScriptConsole.Proofs.Token.Runs

/-!
# Where a character stands

A character of a source stands in a gap, where what is read before it decides which
comment it belongs to, or in a token.  If the tokens before it are read again from another
source that is alike up to it, then the rest is read from there on.
-/

namespace ScriptConsole

namespace Trivia

/-- What a character belongs to that comes after the characters `gap`; none if the gap
ends among them. -/
def reaches : Mode → (gap : List Char) → (ahead : Char) → Option Mode
  | mode, [], _ => some mode
  | mode, c :: gap, ahead =>
      match mode.next? c (gap ++ [ahead]).head? with
      | none => none
      | some next => reaches next gap ahead

theorem head?_append_cons (gap cs : List Char) (c : Char) :
    (gap ++ c :: cs).head? = (gap ++ [c]).head? := by
  cases gap <;> rfl

theorem split_of_reaches {mode reached : Mode} {gap : List Char} {c : Char}
    (h : reaches mode gap c = some reached) (cs : List Char) :
    split mode (gap ++ c :: cs) =
      (gap ++ (split reached (c :: cs)).1, (split reached (c :: cs)).2) := by
  induction gap generalizing mode with
  | nil =>
      obtain rfl := Option.some.inj h
      rfl
  | cons g gap ih =>
      rw [reaches] at h
      split at h
      · cases h
      · rename_i next hnext
        rw [← head?_append_cons gap cs c] at hnext
        rw [List.cons_append, split_cons_of_next? hnext, ih h]
        rfl

theorem exists_reaches {mode : Mode} {gap more cs rest : List Char} {c : Char}
    (h : split mode (gap ++ c :: cs) = (gap ++ c :: more, rest)) :
    ∃ reached, reaches mode gap c = some reached ∧
      (reached.next? c cs.head?).isSome = true := by
  induction gap generalizing mode with
  | nil =>
      obtain ⟨next, hnext, -⟩ := next?_of_split h
      exact ⟨mode, rfl, by rw [hnext]; rfl⟩
  | cons g gap ih =>
      obtain ⟨next, hnext, hsplit⟩ := next?_of_split h
      obtain ⟨reached, hreached, further⟩ := ih hsplit
      have hnext : mode.next? g (gap ++ [c]).head? = some next :=
        head?_append_cons gap cs c ▸ hnext
      exact ⟨reached, by rw [reaches, hnext]; exact hreached, further⟩

/-- The asterisk that opens a block comment is the character ahead of its slash. -/
theorem ahead_of_blockOpening {mode : Mode} {c : Char} {ahead : Option Char}
    (h : mode.next? c ahead = some .blockOpening) : ahead = some '*' := by
  cases mode with
  | between =>
      simp only [Mode.next?] at h
      split at h
      · cases h
      · split at h
        · cases h
        · split at h
          · rename_i block
            exact block.2
          · cases h
  | lineComment =>
      simp only [Mode.next?, Option.some.injEq] at h
      split at h <;> cases h
  | blockOpening => cases h
  | blockComment =>
      simp only [Mode.next?, Option.some.injEq] at h
      split at h <;> cases h
  | blockClosing => cases h

theorem reached_ne_blockOpening {mode reached : Mode} {gap : List Char} {c : Char}
    (h : reaches mode gap c = some reached) (other : c ≠ '*')
    (start : mode = .blockOpening → (gap ++ [c]).head? = some '*') :
    reached ≠ .blockOpening := by
  induction gap generalizing mode with
  | nil =>
      obtain rfl := Option.some.inj h
      exact fun opening => other (Option.some.inj (start opening))
  | cons g gap ih =>
      rw [reaches] at h
      split at h
      · cases h
      · rename_i next hnext
        exact ih h fun opening => ahead_of_blockOpening (opening ▸ hnext)

/-! ## What follows a comment -/

def pastLine (cs : List Char) : List Char :=
  cs.dropWhile (!Text.isLineBreak ·)

/-- What follows the rest of a block comment. -/
def pastBlock (cs : List Char) : List Char :=
  match Text.splitFirst? "*/".toList cs with
  | some (_, rest) => rest
  | none => []

theorem pastLine_append {text : List Char} (inLine : ∀ c ∈ text, Text.isLineBreak c = false)
    (cs : List Char) : pastLine (text ++ cs) = pastLine cs :=
  List.dropWhile_append_of_pos fun c mem => by simp [inLine c mem]

theorem pastBlock_cons_of_ne {c : Char} {cs : List Char}
    (open' : ¬(c = '*' ∧ cs.head? = some '/')) : pastBlock (c :: cs) = pastBlock cs := by
  rw [pastBlock, pastBlock, Text.splitFirst?, afterWord?_closing, if_neg open']
  cases Text.splitFirst? "*/".toList cs <;> rfl

/-- A text without a closing mark, before a character that makes none with its last one. -/
theorem pastBlock_append {text : List Char} {c : Char} {cs : List Char}
    (inside : ¬"*/".toList <:+: text) (apart : c ≠ '/') :
    pastBlock (text ++ c :: cs) = pastBlock (c :: cs) := by
  induction text with
  | nil => rfl
  | cons d text ih =>
      have further : ¬"*/".toList <:+: text := fun mark => inside (mark.trans
        (List.suffix_cons d text).isInfix)
      rw [List.cons_append, pastBlock_cons_of_ne, ih further]
      rintro ⟨rfl, slash⟩
      cases text with
      | nil => exact apart (Option.some.inj slash)
      | cons e text =>
          obtain rfl : e = '/' := Option.some.inj slash
          exact inside ⟨[], text, rfl⟩

end Trivia

namespace Scan

open Trivia

theorem bareAfter_split (previous : Option Token) (cs : List Char) :
    bareAfter previous (split .between cs).2 = bareAfter previous cs := by
  have ends := split_rest .between cs
  cases hrest : (split .between cs).2 with
  | nil =>
      rw [hrest] at ends
      have nothing : (split .between ([] : List Char)).2 = [] := rfl
      rw [bareAfter, bareAfter, after_of_split_eq_nil hrest, after_of_split_eq_nil nothing]
  | cons c rest =>
      rw [hrest] at ends
      rw [bareAfter_of_split ends previous rfl,
        bareAfter_of_split (Prod.ext rfl hrest) previous rfl]

theorem bareAfter_lineComment (previous : Option Token) (cs : List Char) :
    bareAfter previous (split .lineComment cs).2 = bareAfter previous (pastLine cs) := by
  rw [split_lineComment]
  exact bareAfter_split previous _

theorem bareAfter_blockComment (previous : Option Token) (cs : List Char) :
    bareAfter previous (split .blockComment cs).2 = bareAfter previous (pastBlock cs) := by
  rw [split_blockComment, pastBlock]
  cases Text.splitFirst? "*/".toList cs with
  | none => rfl
  | some parts => exact bareAfter_split previous _

theorem bareAfter_of_reaches {gap : List Char} {c : Char} {mode : Mode}
    (h : reaches .between gap c = some mode) (previous : Option Token) (cs : List Char) :
    bareAfter previous (gap ++ c :: cs) = bareAfter previous (split mode (c :: cs)).2 := by
  rw [← bareAfter_split, split_of_reaches h]

/-- What opens no gap opens a token, and the rest is read behind it. -/
theorem exists_bareAfter_cons {c : Char} {cs : List Char}
    (visible : Mode.next? .between c cs.head? = none) (previous : Option Token) :
    ∃ token more rest, bareAfter previous (c :: cs) = token :: bareAfter (some token) rest ∧
      token.text = c :: more ∧ cs = more ++ rest :=
  ⟨_, _, _, bareAfter_of_split (split_cons_of_next?_eq_none visible) previous rfl, rfl,
    (Lexeme.read_append previous c cs).symm⟩

/-- The gap before a token does not tell how the source behind it is read. -/
theorem bareAfter_bare (token : Token) (cs : List Char) :
    bareAfter (some token.bare) cs = bareAfter (some token) cs := by
  have same : Lexeme.allowsRegex (some token.bare) = Lexeme.allowsRegex (some token) := rfl
  exact bareAfter_congr same cs

end Scan

open Token Trivia

/-- Where a character of a source stands that comes after `before`. -/
inductive Place (tokens : List Token) (before : List Char) (c : Char) (more : List Char) : Prop
  /-- In the gap behind some of the tokens. -/
  | gap (left right : List Token) (gap : List Char) (mode : Mode) (split : tokens = left ++ right)
      (before_eq : before = sourceOf left ++ gap) (reached : reaches .between gap c = some mode)
      (further : (mode.next? c more.head?).isSome = true)
  /-- In a token. -/
  | token (left right : List Token) (token : Token) (text text' : List Char)
      (split : tokens = left ++ token :: right)
      (before_eq : before = sourceOf left ++ (token.gap ++ text))
      (text_eq : token.text = text ++ c :: text')

theorem Place.cons {tokens : List Token} {before more : List Char} {c : Char}
    (place : Place tokens before c more) (token : Token) :
    Place (token :: tokens) (token.gap ++ (token.text ++ before)) c more := by
  cases place with
  | gap left right gap mode split before_eq reached further =>
      subst split before_eq
      exact .gap (token :: left) right gap mode rfl (by simp) reached further
  | token left right inner text text' split before_eq text_eq =>
      subst split before_eq
      exact .token (token :: left) right inner text text' rfl (by simp) text_eq

/-- Every character of a source stands in a gap, after some of the tokens, or in a token. -/
theorem Scanned.place {previous : Option Token} {tokens : List Token} {trailing : List Char}
    (scanned : Scanned previous tokens trailing) (ends : (split .between trailing).2 = [])
    {before more : List Char} {c : Char}
    (source : sourceOf tokens ++ trailing = before ++ c :: more) :
    Place tokens before c more := by
  induction scanned generalizing before with
  | nil previous trailing =>
      have whole := split_append .between trailing
      rw [ends, List.append_nil] at whole
      have source : trailing = before ++ c :: more := source
      have inGap : split .between (before ++ c :: more) = (before ++ c :: more, []) :=
        source ▸ Prod.ext whole ends
      obtain ⟨mode, reached, further⟩ := exists_reaches inGap
      exact .gap [] [] before mode rfl rfl reached further
  | @cons previous kind gap more' rest first tokens split' read tail ih =>
      let token : Token := ⟨kind, gap, first :: more'⟩
      have cut : gap ++ (token.text ++ (sourceOf tokens ++ rest)) = before ++ c :: more := by
        simpa [token] using source
      rcases List.append_eq_append_iff.1 cut with ⟨inner, rfl, within⟩ | ⟨mark, hgap, within⟩
      · rcases List.append_eq_append_iff.1 within with ⟨behind, rfl, after⟩ | ⟨mark, htext, after⟩
        · exact (ih ends after).cons token
        · cases mark with
          | nil =>
              have here : inner = token.text := by simpa using htext.symm
              have behind : Place tokens [] c more := ih ends after.symm
              simpa [here] using behind.cons token
          | cons d text' =>
              obtain ⟨rfl, -⟩ := List.cons.inj after
              exact .token [] tokens token inner text' rfl rfl htext
      · cases mark with
        | nil =>
            have here : before = gap ++ [] := by simpa using hgap.symm
            obtain ⟨rfl, -⟩ := List.cons.inj within
            exact .token [] tokens token [] more' rfl here rfl
        | cons d gap' =>
            obtain ⟨rfl, rfl⟩ := List.cons.inj within
            rw [hgap, List.append_assoc, List.cons_append] at split'
            obtain ⟨mode, reached, further⟩ := exists_reaches split'
            exact .gap [] (token :: tokens) before mode rfl rfl reached further

/-- Tokens that are read again from a source which is alike after them are read up to there:
what follows is read after the last of them. -/
theorem Scanned.bareAfter_reread {previous : Option Token} {left : List Token}
    {rest rest' : List Char} (scanned : Scanned previous left rest) (alike : Alike rest rest')
    (previous' : Option Token)
    (again : left.map bare <+: Scan.bareAfter previous' (sourceOf left ++ rest')) :
    Scan.bareAfter previous' (sourceOf left ++ rest') =
      left.map bare ++ Scan.bareAfter (left.getLast?.or previous') rest' := by
  induction scanned generalizing previous' with
  | nil previous rest => rfl
  | @cons previous kind gap more rest c tokens split read tail ih =>
      have whole := Trivia.whole_of_split split
      have visible := Trivia.next?_eq_none_after_split split
      have visible' := next?_append_of_alike visible (alike.append (sourceOf tokens))
      obtain ⟨token, more', left', opened, text, spelled⟩ :=
        Scan.exists_bareAfter_cons visible' previous'
      have source : sourceOf (⟨kind, gap, c :: more⟩ :: tokens) ++ rest' =
          gap ++ (c :: (more ++ (sourceOf tokens ++ rest'))) := by
        simp
      rw [source, Scan.bareAfter_append_of_whole whole, opened] at again ⊢
      obtain ⟨rfl, again⟩ := List.cons_prefix_cons.1 again
      obtain rfl : more = more' := (List.cons.inj text).2
      obtain rfl := List.append_cancel_left spelled
      rw [Scan.bareAfter_bare] at again ⊢
      rw [getLast?_cons_or, ih alike _ again]
      rfl

theorem alike_self (cs : List Char) : Alike cs cs := by
  simpa using (Alike.stop []).append cs

theorem sourceOf_append_of_tokenize {source : List Char} {left right : List Token}
    (split : tokenize source = left ++ right) :
    sourceOf left ++ (sourceOf right ++ (Scan.ofSource source).trailing) = source := by
  have whole := Scan.source_ofSource source
  rwa [Scan.source, show (Scan.ofSource source).tokens = left ++ right from split,
    sourceOf_append, List.append_assoc] at whole

/-- The tokens that are left are those of the rest of the source. -/
theorem bareAfter_of_tokenize {source : List Char} {left right : List Token}
    (split : tokenize source = left ++ right) :
    Scan.bareAfter left.getLast? (sourceOf right ++ (Scan.ofSource source).trailing) =
      right.map bare := by
  have whole : Scan.bareAfter none source = left.map bare ++ right.map bare := by
    rw [← List.map_append, ← split]
    rfl
  have scanned := scanned_tokenize source
  rw [split, Scanned.append_iff] at scanned
  have again := scanned.1.bareAfter_reread (alike_self _) none
    (by rw [sourceOf_append_of_tokenize split, whole]; exact List.prefix_append _ _)
  rw [sourceOf_append_of_tokenize split, whole] at again
  simpa using (List.append_cancel_left again).symm

/-- A token of a source opens with a character that opens no gap. -/
theorem opens_of_tokenize {source : List Char} {left right : List Token} {token : Token}
    (split : tokenize source = left ++ token :: right) :
    Whole token.gap ∧ ∃ c more, token.text = c :: more ∧ Mode.next? .between c
      (more ++ (sourceOf right ++ (Scan.ofSource source).trailing)).head? = none := by
  have scanned := scanned_tokenize source
  rw [split, Scanned.append_iff] at scanned
  cases scanned.2 with
  | cons split' read tail =>
      exact ⟨whole_of_split split', _, _, rfl, next?_eq_none_after_split split'⟩

end ScriptConsole

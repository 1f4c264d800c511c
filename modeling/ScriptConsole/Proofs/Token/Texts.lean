import ScriptConsole.Proofs.Token.Literals

/-!
# What tokens are spelled with

Names, numbers and marks go on with no character at which tokens end.  Strings,
templates and regular expressions hold any character; one that is closed ends
with what closes it.
-/

namespace ScriptConsole

/-- Strings, templates and regular expressions. -/
def TokenKind.isLiteral : TokenKind → Bool
  | .string | .template | .regex => true
  | .identifier | .number | .punctuator => false

namespace Lexeme

/-- A character that goes on no name, no number and no mark. -/
def EndsToken (c : Char) : Prop :=
  Text.isIdentContinue c = false ∧ (∀ exponent, continuesNumber exponent c = false) ∧
    ∀ mark ∈ punctuators, c ∉ mark.toList.tail

theorem endsToken_of_mem_barriers {c : Char} (barrier : c ∈ barriers) : EndsToken c := by
  have noNumber : ∀ c ∈ barriers, ∀ exponent : Bool, continuesNumber exponent c = false :=
    forall_mem_of_all (by decide)
  exact ⟨isIdentContinue_of_mem_barriers barrier, noNumber c barrier,
    not_mem_tail_of_mem_barriers barrier⟩

theorem not_endsToken_of_numberMore {hex : Bool} {last : Char} {cs : List Char} :
    ∀ d ∈ (numberMore hex last cs).1, ¬EndsToken d := by
  induction cs generalizing last with
  | nil => simp [numberMore]
  | cons c cs ih =>
      rw [numberMore_cons]
      split
      · rename_i goesOn
        rw [List.forall_mem_cons]
        refine ⟨fun ends => ?_, ih⟩
        rw [ends.2.1] at goesOn
        cases goesOn
      · simp

theorem not_endsToken_of_punctuator {c : Char} {cs : List Char} :
    ∀ d ∈ (punctuator c cs).more, ¬EndsToken d := by
  intro d mem ends
  by_cases zero : punctuatorReach c cs = 0
  · rw [punctuator, zero, List.take_zero] at mem
    cases mem
  · obtain ⟨mark, isMark, hprefix, -, hlength⟩ := exists_punctuator_of_reach zero
    have text : mark.toList = c :: cs.take (punctuatorReach c cs) := by
      rw [List.prefix_iff_eq_take.1 hprefix, hlength, List.take_succ_cons]
    refine ends.2.2 mark isMark ?_
    rw [text]
    exact mem

/-- What follows the first character of a token that is no literal. -/
theorem not_endsToken_of_read {previous : Option Token} {c : Char} {kind : TokenKind}
    {cs more rest : List Char} (h : read previous c cs = ⟨kind, more, rest⟩)
    (plain : kind.isLiteral = false) : ∀ d ∈ more, ¬EndsToken d := by
  cases Reads.of_read h with
  | name opens text =>
      intro d mem ends
      have goesOn := List.all_eq_true.1 List.all_takeWhile d (text ▸ mem)
      rw [ends.1] at goesOn
      cases goesOn
  | number opens parts =>
      have goesOn : ∀ d ∈ (numberMore (opensHexadecimal c cs) c cs).1, ¬EndsToken d :=
        not_endsToken_of_numberMore
      rwa [parts] at goesOn
  | quoted => cases plain
  | template => cases plain
  | regex => cases plain
  | slash opens allows noBody alone => simp [alone]
  | mark noRegex read =>
      have goesOn : ∀ d ∈ (punctuator c cs).more, ¬EndsToken d := not_endsToken_of_punctuator
      rwa [read] at goesOn

theorem not_mem_barriers_of_read {previous : Option Token} {c : Char} {kind : TokenKind}
    {cs more rest : List Char} (h : read previous c cs = ⟨kind, more, rest⟩)
    (plain : kind.isLiteral = false) : ∀ d ∈ more, d ∉ barriers :=
  fun d mem barrier => not_endsToken_of_read h plain d mem (endsToken_of_mem_barriers barrier)

/-- The body of a regular expression ends with the slash that closes it. -/
theorem getLast?_regexBody {inClass escaped : Bool} {cs body rest : List Char}
    (h : regexBody inClass escaped cs = some (body, rest)) : body.getLast? = some '/' := by
  induction cs generalizing inClass escaped body with
  | nil => cases h
  | cons c cs ih =>
      have further : ∀ {a b : Bool}, (regexBody a b cs).map (fun parts => (c :: parts.1, parts.2)) =
          some (body, rest) → body.getLast? = some '/' := by
        intro a b hmap
        obtain ⟨⟨first, second⟩, hbody, hparts⟩ := Option.map_eq_some_iff.1 hmap
        simp only [Prod.mk.injEq] at hparts
        obtain ⟨rfl, rfl⟩ := hparts
        rw [List.getLast?_cons, ih hbody]
        rfl
      simp only [regexBody] at h
      split at h
      · exact further h
      · split at h
        · cases h
        · split at h
          · exact further h
          · split at h
            · exact further h
            · split at h
              · exact further h
              · split at h
                · rename_i closes
                  simp only [Option.some.injEq, Prod.mk.injEq] at h
                  rw [← h.1, closes.1]
                  rfl
                · exact further h

theorem exists_getLast?_of_regexMore? {cs more rest : List Char}
    (h : regexMore? cs = some (more, rest)) : ∃ d ∈ more.getLast?, d ∉ barriers := by
  obtain ⟨⟨body, after⟩, hbody, hparts⟩ := Option.map_eq_some_iff.1 h
  simp only [Prod.mk.injEq] at hparts
  obtain ⟨rfl, rfl⟩ := hparts
  rw [List.getLast?_append]
  cases flags : (after.takeWhile Text.isIdentContinue).getLast? with
  | none => exact ⟨'/', getLast?_regexBody hbody, by decide⟩
  | some d =>
      refine ⟨d, rfl, fun barrier => ?_⟩
      have flag := List.all_eq_true.1 List.all_takeWhile d (List.mem_of_getLast? flags)
      rw [isIdentContinue_of_mem_barriers barrier] at flag
      cases flag

/-- The last character of a literal that is closed is what closes it, a flag of a regular
expression, or the line break that ends a string. -/
theorem exists_getLast?_of_read {previous : Option Token} {c : Char} {kind : TokenKind}
    {more rest : List Char} (h : read previous c (more ++ rest) = ⟨kind, more, rest⟩)
    (literal : kind.isLiteral = true) (closed : isOpenLiteral kind (c :: more) = false) :
    ∃ d ∈ more.getLast?, d ∉ barriers ∨ d = '\n' := by
  have marks : ∀ mark ∈ literalMarks, mark ∉ barriers := forall_mem_of_all (by decide)
  cases Reads.of_read h with
  | quoted =>
      obtain ⟨mark, body, last, -, ends, rfl⟩ := exists_quoted_of_read h closed
      refine ⟨last, by simp, ends.imp_left fun own => marks last ?_⟩
      rcases mark with rfl | rfl <;> rw [own] <;> decide
  | template =>
      obtain ⟨-, inside, -, rfl⟩ := exists_inside_of_read h closed
      exact ⟨'\x60', by simp, .inl (marks _ (by decide))⟩
  | regex opens allows parts =>
      obtain ⟨d, last, noBarrier⟩ := exists_getLast?_of_regexMore? parts
      exact ⟨d, last, .inl noBarrier⟩
  | name => cases literal
  | number => cases literal
  | slash => cases literal
  | mark => cases literal

end Lexeme

end ScriptConsole

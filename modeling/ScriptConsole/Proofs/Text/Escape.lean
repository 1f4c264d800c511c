import ScriptConsole.Palette
import ScriptConsole.Text.Escape

/-!
# Stripping texts that are put together

A text may end within an escape sequence, which what follows it may complete.  Blanks do
not, and neither does another escape sequence: such texts are stripped by themselves, so
painting is never seen once escape sequences are stripped.
-/

namespace ScriptConsole

namespace Text

/-- What follows a control sequence after its parameters. -/
def afterParameters? (cs : List Char) : Option (List Char) :=
  match cs.dropWhile isSequenceIntermediate with
  | c :: rest => if isSequenceFinal c then some rest else none
  | [] => none

theorem afterControl?_eq (cs : List Char) :
    afterControl? cs = afterParameters? (cs.dropWhile isSequenceParameter) := rfl

/-- What follows the end of a system command. -/
def afterTerminator? : List Char → Option (List Char)
  | '\x07' :: rest => some rest
  | '\x1b' :: '\\' :: rest => some rest
  | _ => none

theorem afterCommand?_eq (cs : List Char) :
    afterCommand? cs = afterTerminator? (cs.dropWhile fun c => c != '\x07' && c != '\x1b') := by
  rfl

theorem afterTerminator?_eq_none {c : Char} {rest : List Char} (bell : c ≠ '\x07')
    (ends : c = '\x1b' → rest.head? ≠ some '\\') : afterTerminator? (c :: rest) = none := by
  unfold afterTerminator?
  split
  · rename_i same
    exact absurd (List.cons.inj same).1 bell
  · rename_i same
    obtain ⟨escape, rfl⟩ := List.cons.inj same
    exact absurd rfl (ends escape)
  · rfl

theorem afterEscape?_eq_none {c : Char} {rest : List Char}
    (control : c = '\x1b' → rest.head? ≠ some '[')
    (command : c = '\x1b' → rest.head? ≠ some ']') : afterEscape? (c :: rest) = none := by
  unfold afterEscape?
  split
  · rename_i same
    obtain ⟨escape, rfl⟩ := List.cons.inj same
    exact absurd rfl (control escape)
  · rename_i same
    obtain ⟨escape, rfl⟩ := List.cons.inj same
    exact absurd rfl (command escape)
  · rfl

theorem stripEscapes_of_afterEscape? {cs rest : List Char} (opened : afterEscape? cs = some rest) :
    stripEscapes cs = stripEscapes rest := by
  cases cs with
  | nil => cases opened
  | cons c cs =>
      rw [stripEscapes]
      split
      · rename_i other opened'
        rw [Option.some.inj (opened.symm.trans opened')]
      · rename_i plain
        cases opened.symm.trans plain

theorem stripEscapes_cons {c : Char} {cs : List Char} (plain : afterEscape? (c :: cs) = none) :
    stripEscapes (c :: cs) = c :: stripEscapes cs := by
  rw [stripEscapes]
  split
  · rename_i rest opened
    cases plain.symm.trans opened
  · rfl

/-- A text that completes no escape sequence which began before it. -/
structure CompletesNone (right : List Char) : Prop where
  opens : ∀ c ∈ right.head?, c ≠ '[' ∧ c ≠ ']' ∧ c ≠ '\\'
  parameters : afterParameters? right = none
  control : afterControl? right = none
  command : afterCommand? right = none

/-- A text is dropped from as if alone, unless all of it is dropped. -/
theorem dropWhile_append_cases (p : Char → Bool) (left right : List Char) :
    (left.dropWhile p = [] ∧ (left ++ right).dropWhile p = right.dropWhile p) ∨
      ∃ c rest, left.dropWhile p = c :: rest ∧
        (left ++ right).dropWhile p = c :: (rest ++ right) := by
  rw [List.dropWhile_append]
  cases left.dropWhile p with
  | nil => exact .inl ⟨rfl, rfl⟩
  | cons c rest => exact .inr ⟨c, rest, rfl, rfl⟩

namespace CompletesNone

variable {right : List Char}

theorem afterParameters?_append (completes : CompletesNone right) (left : List Char) :
    afterParameters? (left ++ right) = (afterParameters? left).map (· ++ right) := by
  rcases dropWhile_append_cases isSequenceIntermediate left right with
    ⟨all, whole⟩ | ⟨c, rest, some_left, whole⟩
  · have none_right := completes.parameters
    rw [afterParameters?] at none_right ⊢
    rw [whole, none_right, afterParameters?, all]
    rfl
  · rw [afterParameters?, whole, afterParameters?, some_left]
    dsimp only
    split <;> rfl

theorem afterControl?_append (completes : CompletesNone right) (left : List Char) :
    afterControl? (left ++ right) = (afterControl? left).map (· ++ right) := by
  rcases dropWhile_append_cases isSequenceParameter left right with
    ⟨all, whole⟩ | ⟨c, rest, some_left, whole⟩
  · rw [afterControl?_eq, whole, ← afterControl?_eq, completes.control, afterControl?_eq, all]
    rfl
  · rw [afterControl?_eq, whole, afterControl?_eq, some_left]
    exact completes.afterParameters?_append (c :: rest)

theorem head?_append_ne (completes : CompletesNone right) {rest : List Char} {c : Char}
    (special : c = '[' ∨ c = ']' ∨ c = '\\') (other : rest.head? ≠ some c) :
    (rest ++ right).head? ≠ some c := by
  cases rest with
  | nil =>
      intro opened
      obtain ⟨bracket, bracket', slash⟩ := completes.opens c opened
      rcases special with h | h | h
      · exact bracket h
      · exact bracket' h
      · exact slash h
  | cons d rest => exact other

theorem afterTerminator?_append (completes : CompletesNone right) (c : Char)
    (rest : List Char) :
    afterTerminator? (c :: (rest ++ right)) =
      (afterTerminator? (c :: rest)).map (· ++ right) := by
  by_cases bell : c = '\x07'
  · rw [bell]
    rfl
  · by_cases ends : c = '\x1b' ∧ rest.head? = some '\\'
    · obtain ⟨more, rfl⟩ := List.head?_eq_some_iff.1 ends.2
      rw [ends.1]
      rfl
    · rw [not_and] at ends
      rw [afterTerminator?_eq_none bell ends, afterTerminator?_eq_none bell fun escape =>
        completes.head?_append_ne (.inr (.inr rfl)) (ends escape)]
      rfl

theorem afterCommand?_append (completes : CompletesNone right) (left : List Char) :
    afterCommand? (left ++ right) = (afterCommand? left).map (· ++ right) := by
  rcases dropWhile_append_cases (fun c => c != '\x07' && c != '\x1b') left right with
    ⟨all, whole⟩ | ⟨c, rest, some_left, whole⟩
  · have none_right := completes.command
    rw [afterCommand?_eq] at none_right ⊢
    rw [whole, none_right, afterCommand?_eq, all]
    rfl
  · rw [afterCommand?_eq, whole, afterCommand?_eq, some_left]
    exact completes.afterTerminator?_append c rest

/-- An escape sequence that opens a text is one of that text alone. -/
theorem afterEscape?_append (completes : CompletesNone right) (c : Char) (rest : List Char) :
    afterEscape? (c :: (rest ++ right)) = (afterEscape? (c :: rest)).map (· ++ right) := by
  by_cases control : c = '\x1b' ∧ rest.head? = some '['
  · obtain ⟨more, rfl⟩ := List.head?_eq_some_iff.1 control.2
    rw [control.1]
    exact completes.afterControl?_append more
  · by_cases command : c = '\x1b' ∧ rest.head? = some ']'
    · obtain ⟨more, rfl⟩ := List.head?_eq_some_iff.1 command.2
      rw [command.1]
      exact completes.afterCommand?_append more
    · rw [not_and] at control command
      rw [afterEscape?_eq_none control command, afterEscape?_eq_none
        (fun escape => completes.head?_append_ne (.inl rfl) (control escape))
        (fun escape => completes.head?_append_ne (.inr (.inl rfl)) (command escape))]
      rfl

theorem stripEscapes_append (completes : CompletesNone right) (left : List Char) :
    stripEscapes (left ++ right) = stripEscapes left ++ stripEscapes right := by
  induction left using stripEscapes.induct with
  | case1 => simp [stripEscapes]
  | case2 c left rest opened ih =>
      have opened' := completes.afterEscape?_append c left
      rw [opened] at opened'
      rw [List.cons_append, stripEscapes_of_afterEscape? opened',
        stripEscapes_of_afterEscape? opened, ih]
  | case3 c left plain ih =>
      have plain' := completes.afterEscape?_append c left
      rw [plain] at plain'
      rw [List.cons_append, stripEscapes_cons plain', stripEscapes_cons plain, ih,
        List.cons_append]

end CompletesNone

/-! ## What completes nothing -/

theorem completesNone_blanks (count : Nat) : CompletesNone (List.replicate count ' ') := by
  have dropped (p : Char → Bool) (blank : p ' ' = true) :
      (List.replicate count ' ').dropWhile p = [] := by
    rw [List.dropWhile_replicate, if_pos blank]
  have parameters : (List.replicate count ' ').dropWhile isSequenceParameter =
      List.replicate count ' ' := by
    rw [List.dropWhile_replicate, if_neg (by decide)]
  have none_after : afterParameters? (List.replicate count ' ') = none := by
    rw [afterParameters?, dropped _ rfl]
  refine ⟨fun c first => ?_, none_after, ?_, ?_⟩
  · have blank := List.eq_of_mem_replicate (List.mem_of_mem_head? first)
    rw [blank]
    decide
  · rw [afterControl?_eq, parameters, none_after]
  · rw [afterCommand?_eq, dropped _ rfl]
    rfl

theorem completesNone_escape (rest : List Char) : CompletesNone ('\x1b' :: '[' :: rest) where
  opens := by
    intro c first
    obtain rfl := Option.some.inj first
    decide
  parameters := rfl
  control := rfl
  command := rfl

theorem stripEscapes_append_of_not_mem {cs : List Char} (free : '\x1b' ∉ cs) (rest : List Char) :
    stripEscapes (cs ++ rest) = cs ++ stripEscapes rest := by
  induction cs with
  | nil => rfl
  | cons c cs ih =>
      rw [List.mem_cons, not_or] at free
      have plain : afterEscape? (c :: (cs ++ rest)) = none :=
        afterEscape?_eq_none (fun escape => absurd escape.symm free.1)
          fun escape => absurd escape.symm free.1
      rw [List.cons_append, stripEscapes_cons plain, ih free.2, List.cons_append]

theorem stripEscapes_of_not_mem {cs : List Char} (free : '\x1b' ∉ cs) : stripEscapes cs = cs := by
  have whole := stripEscapes_append_of_not_mem free []
  rwa [List.append_nil, stripEscapes, List.append_nil] at whole

/-! ## Paint -/

theorem stripEscapes_select {rendition : String}
    (digits : rendition.toList.all isSequenceParameter = true) (rest : List Char) :
    stripEscapes (Style.select rendition ++ rest) = stripEscapes rest := by
  have selected : afterEscape? (Style.select rendition ++ rest) = some rest := by
    change afterControl? (rendition.toList ++ ['m'] ++ rest) = some rest
    rw [List.append_assoc, afterControl?_eq,
      List.dropWhile_append_of_pos (List.all_eq_true.1 digits)]
    rfl
  exact stripEscapes_of_afterEscape? selected

theorem stripEscapes_opening (style : Style) (rest : List Char) :
    stripEscapes (style.opening ++ rest) = stripEscapes rest := by
  cases style with
  | notice =>
      rw [Style.opening, List.append_assoc, stripEscapes_select (by decide),
        stripEscapes_select (by decide)]
  | _ => exact stripEscapes_select (by decide) rest

theorem stripEscapes_closing (style : Style) (rest : List Char) :
    stripEscapes (style.closing ++ rest) = stripEscapes rest := by
  cases style with
  | notice =>
      rw [Style.closing, List.append_assoc, stripEscapes_select (by decide),
        stripEscapes_select (by decide)]
  | _ => exact stripEscapes_select (by decide) rest

theorem completesNone_closing (style : Style) (rest : List Char) :
    CompletesNone (style.closing ++ rest) := by
  cases style <;> exact completesNone_escape _

/-- Paint is not seen in a stripped text, whatever the painted text ends in. -/
theorem stripEscapes_paintChars_append (style : Style) (text rest : List Char) :
    stripEscapes ((⟨true⟩ : Palette).paintChars style text ++ rest) =
      stripEscapes text ++ stripEscapes rest := by
  rw [Palette.paintChars, if_pos rfl, List.append_assoc, List.append_assoc, stripEscapes_opening,
    (completesNone_closing style rest).stripEscapes_append, stripEscapes_closing]

end Text

end ScriptConsole

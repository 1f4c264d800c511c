import ScriptConsole.Token.Trivia

/-!
# Gaps in other surroundings

A gap before a token is a gap before anything.  The gap at the end of a source
takes a further line break in; then it is over, unless a block comment in it is
still open.
-/

namespace ScriptConsole.Trivia

/-- A gap that ends of itself, whatever follows. -/
def Whole (gap : List Char) : Prop :=
  ∀ cs, split .between (gap ++ cs) = (gap ++ (split .between cs).1, (split .between cs).2)

theorem split_cons_of_next? {mode next : Mode} {c : Char} {cs : List Char}
    (h : mode.next? c cs.head? = some next) :
    split mode (c :: cs) = (c :: (split next cs).1, (split next cs).2) := by
  rw [split, h]

theorem split_cons_of_next?_eq_none {mode : Mode} {c : Char} {cs : List Char}
    (h : mode.next? c cs.head? = none) : split mode (c :: cs) = ([], c :: cs) := by
  rw [split, h]

theorem next?_of_split {mode : Mode} {c : Char} {gap cs rest : List Char}
    (h : split mode (c :: cs) = (c :: gap, rest)) :
    ∃ next, mode.next? c cs.head? = some next ∧ split next cs = (gap, rest) := by
  cases hnext : mode.next? c cs.head? with
  | none =>
      rw [split_cons_of_next?_eq_none hnext] at h
      cases h
  | some next =>
      rw [split_cons_of_next? hnext] at h
      simp only [Prod.mk.injEq, List.cons.injEq, true_and] at h
      exact ⟨next, rfl, Prod.ext h.1 h.2⟩

theorem next?_eq_none_of_split {mode : Mode} {c : Char} {cs rest : List Char}
    (h : split mode (c :: cs) = ([], rest)) : mode.next? c cs.head? = none := by
  cases hnext : mode.next? c cs.head? with
  | none => rfl
  | some next =>
      rw [split_cons_of_next? hnext] at h
      cases h

theorem next?_eq_none_after_split {gap cs : List Char} {c : Char}
    (h : split .between (gap ++ c :: cs) = (gap, c :: cs)) :
    Mode.next? .between c cs.head? = none := by
  have ends := split_rest .between (gap ++ c :: cs)
  rw [h] at ends
  exact next?_eq_none_of_split ends

theorem isSpacing_eq_false_of_next? {c : Char} {ahead : Option Char}
    (h : Mode.next? .between c ahead = none) : isSpacing c = false := by
  simp only [Mode.next?] at h
  split at h
  · cases h
  · rename_i visible
    exact Bool.eq_false_iff.2 visible

theorem next?_eq_between {mode : Mode} {c : Char} {ahead : Option Char}
    (h : mode.next? c ahead = some .between) (ahead' : Option Char) :
    mode.next? c ahead' = some .between := by
  cases mode with
  | between =>
      simp only [Mode.next?] at h ⊢
      split at h
      · rename_i spacing
        rw [if_pos spacing]
      · split at h
        · cases h
        · split at h <;> cases h
  | lineComment => exact h
  | blockOpening => cases h
  | blockComment =>
      simp only [Mode.next?, Option.some.injEq] at h
      split at h <;> cases h
  | blockClosing => exact h

theorem split_append_of_split {mode : Mode} {gap : List Char} {c : Char} {rest : List Char}
    (h : split mode (gap ++ c :: rest) = (gap, c :: rest)) (cs : List Char) :
    split mode (gap ++ cs) = (gap ++ (split .between cs).1, (split .between cs).2) := by
  induction gap generalizing mode with
  | nil => rw [eq_between_of_next?_eq_none (next?_eq_none_of_split h), List.nil_append,
      List.nil_append]
  | cons g gap ih =>
      obtain ⟨next, hnext, hrest⟩ := next?_of_split h
      have hnext' : mode.next? g (gap ++ cs).head? = some next := by
        cases gap with
        | nil =>
            have hbetween := eq_between_of_next?_eq_none (next?_eq_none_of_split hrest)
            rw [hbetween] at hnext ⊢
            exact next?_eq_between hnext _
        | cons first gap => exact hnext
      rw [List.cons_append, split_cons_of_next? hnext', ih hrest]
      rfl

theorem whole_of_split {gap : List Char} {c : Char} {rest : List Char}
    (h : split .between (gap ++ c :: rest) = (gap, c :: rest)) : Whole gap :=
  split_append_of_split h

theorem whole_nil : Whole [] := fun _ => rfl

theorem whole_space : Whole [' '] := fun _ => rfl

theorem split_between_of_isSpacing {c : Char} (blank : isSpacing c = true) (cs : List Char) :
    split .between (c :: cs) = (c :: (split .between cs).1, (split .between cs).2) :=
  split_cons_of_next? (if_pos blank)

theorem whole_of_isSpacing {gap : List Char} (blank : ∀ c ∈ gap, isSpacing c = true) :
    Whole gap := by
  intro cs
  induction gap with
  | nil => rfl
  | cons c gap ih =>
      rw [List.forall_mem_cons] at blank
      rw [List.cons_append, split_between_of_isSpacing blank.1, ih blank.2]
      rfl

/-- What the character after a gap belongs to. -/
def modeAfter : Mode → List Char → Mode
  | mode, [] => mode
  | mode, c :: cs =>
      match mode.next? c cs.head? with
      | none => mode
      | some next => modeAfter next cs

/-- A block comment in the gap is not closed. -/
def opensComment (gap : List Char) : Bool :=
  modeAfter .between gap == .blockComment

/-- The mode after a line break. -/
def Mode.afterLine : Mode → Mode
  | .between | .lineComment | .blockClosing => .between
  | .blockOpening | .blockComment => .blockComment

theorem next?_line (mode : Mode) (ahead : Option Char) :
    mode.next? '\n' ahead = some mode.afterLine := by
  cases mode <;> simp [Mode.next?, Mode.afterLine, isSpacing, Text.isBlank, Text.isLineBreak]

theorem next?_before_line {mode next : Mode} {c : Char}
    (h : mode.next? c none = some next) : mode.next? c (some '\n') = some next := by
  cases mode with
  | between =>
      simp only [Mode.next?] at h ⊢
      split at h
      · rename_i spacing
        rw [if_pos spacing]
        exact h
      · simp at h
  | lineComment => exact h
  | blockOpening => exact h
  | blockComment => simpa [Mode.next?] using h
  | blockClosing => exact h

theorem split_append_line_of_mode {mode : Mode} {gap : List Char}
    (h : (split mode gap).2 = []) (cs : List Char) :
    split mode (gap ++ '\n' :: cs) =
      (gap ++ '\n' :: (split (modeAfter mode gap).afterLine cs).1,
        (split (modeAfter mode gap).afterLine cs).2) := by
  induction gap generalizing mode with
  | nil => exact split_cons_of_next? (next?_line mode _)
  | cons g gap ih =>
      cases hnext : mode.next? g gap.head? with
      | none =>
          rw [split_cons_of_next?_eq_none hnext] at h
          cases h
      | some next =>
          rw [split_cons_of_next? hnext] at h
          have hnext' : mode.next? g (gap ++ '\n' :: cs).head? = some next := by
            cases gap with
            | nil => exact next?_before_line hnext
            | cons first gap => exact hnext
          have hmode : modeAfter mode (g :: gap) = modeAfter next gap := by
            rw [modeAfter, hnext]
          rw [List.cons_append, split_cons_of_next? hnext', ih h, hmode]
          rfl

theorem ne_mark_of_next? {mode next : Mode} {c : Char} (h : mode.next? c none = some next) :
    ¬(next = .blockOpening ∨ next = .blockClosing) := by
  cases mode with
  | between =>
      simp only [Mode.next?] at h
      split at h
      · cases h
        simp
      · simp at h
  | lineComment =>
      simp only [Mode.next?, Option.some.injEq] at h
      split at h <;> simp [← h]
  | blockOpening =>
      cases h
      simp
  | blockComment =>
      cases h
      simp
  | blockClosing =>
      cases h
      simp

theorem afterLine_modeAfter {mode : Mode} {gap : List Char}
    (marks : mode = .blockOpening ∨ mode = .blockClosing → gap ≠ []) :
    (modeAfter mode gap).afterLine =
      if modeAfter mode gap = .blockComment then .blockComment else .between := by
  induction gap generalizing mode with
  | nil => cases mode <;> simp_all [modeAfter, Mode.afterLine]
  | cons g gap ih =>
      rw [modeAfter]
      split
      · rename_i hnext
        rw [eq_between_of_next?_eq_none hnext]
        rfl
      · rename_i next hnext
        apply ih
        rintro hmarks rfl
        exact ne_mark_of_next? hnext hmarks

theorem split_append_line {gap : List Char} (h : (split .between gap).2 = [])
    (closed : opensComment gap = false) (cs : List Char) :
    split .between (gap ++ '\n' :: cs) =
      (gap ++ '\n' :: (split .between cs).1, (split .between cs).2) := by
  have hmode : modeAfter .between gap ≠ .blockComment := by
    simpa [opensComment] using closed
  have hline := @afterLine_modeAfter .between gap (by simp)
  rw [if_neg hmode] at hline
  rw [split_append_line_of_mode h, hline]

theorem split_append_line_of_opensComment {gap : List Char}
    (h : (split .between gap).2 = []) (opened : opensComment gap = true) (cs : List Char) :
    split .between (gap ++ '\n' :: cs) =
      (gap ++ '\n' :: (split .blockComment cs).1, (split .blockComment cs).2) := by
  have hmode : modeAfter .between gap = .blockComment := by
    simpa [opensComment] using opened
  rw [split_append_line_of_mode h, hmode]
  rfl

end ScriptConsole.Trivia

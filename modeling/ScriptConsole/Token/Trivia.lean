import ScriptConsole.Token

/-!
# Trivia

Blanks, byte order marks, line comments and block comments separate tokens.  A
line comment ends before its line break, a block comment after its closing
mark; either may also be ended by the end of the source.
-/

namespace ScriptConsole.Trivia

/-- What the next character belongs to. -/
inductive Mode where
  | between
  | lineComment
  /-- The asterisk that opens a block comment. -/
  | blockOpening
  | blockComment
  /-- The slash that closes a block comment. -/
  | blockClosing
  deriving DecidableEq, Repr

/-- Blanks and byte order marks. -/
def isSpacing (c : Char) : Bool :=
  Text.isBlank c || c == '\ufeff'

/-- What follows a character of a gap, given the character ahead of it; none if
the gap ends before the character. -/
def Mode.next? : Mode → Char → Option Char → Option Mode
  | .between, c, ahead =>
      if isSpacing c then some .between
      else if c = '/' ∧ ahead = some '/' then some .lineComment
      else if c = '/' ∧ ahead = some '*' then some .blockOpening
      else none
  | .lineComment, c, _ =>
      some (if Text.isLineBreak c then .between else .lineComment)
  | .blockOpening, _, _ => some .blockComment
  | .blockComment, c, ahead =>
      some (if c = '*' ∧ ahead = some '/' then .blockClosing else .blockComment)
  | .blockClosing, _, _ => some .between

/-- The gap that opens a source, and what follows it. -/
def split : Mode → List Char → List Char × List Char
  | _, [] => ([], [])
  | mode, c :: cs =>
      match mode.next? c cs.head? with
      | none => ([], c :: cs)
      | some mode => (c :: (split mode cs).1, (split mode cs).2)

@[simp] theorem split_append (mode : Mode) (cs : List Char) :
    (split mode cs).1 ++ (split mode cs).2 = cs := by
  induction cs generalizing mode with
  | nil => rfl
  | cons c cs ih =>
      unfold split
      split
      · rfl
      · simp [ih]

theorem split_rest_length_le (mode : Mode) (cs : List Char) :
    (split mode cs).2.length ≤ cs.length := by
  have h := congrArg List.length (split_append mode cs)
  simp only [List.length_append] at h
  omega

theorem eq_between_of_next?_eq_none {mode : Mode} {c : Char} {ahead : Option Char}
    (h : mode.next? c ahead = none) : mode = .between := by
  cases mode <;> simp_all [Mode.next?]

/-- A gap takes all it can: nothing that follows it could extend it. -/
theorem split_rest (mode : Mode) (cs : List Char) :
    split .between (split mode cs).2 = ([], (split mode cs).2) := by
  induction cs generalizing mode with
  | nil => rfl
  | cons c cs ih =>
      rw [split]
      split
      · rename_i h
        rw [eq_between_of_next?_eq_none h] at h
        simp [split, h]
      · exact ih _

end ScriptConsole.Trivia

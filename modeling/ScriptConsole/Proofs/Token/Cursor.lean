import ScriptConsole.Proofs.Token.Partition
import ScriptConsole.Proofs.Token.Runs

/-!
# Scanning with a cursor

A scanner moves a cursor over the encoded source and keeps its position in bytes.  The loop
that skips a gap keeps one flag besides, whether it has crossed a line break.  The positions
come to the spans of the tokens, and the flag to whether a token starts a line: neither tells
more than the gaps do.
-/

namespace ScriptConsole

/-- The number of bytes that are passed, and the characters that are ahead. -/
structure Cursor where
  pos : Nat
  ahead : List Char
  deriving DecidableEq, Repr

namespace Cursor

/-- On to the line break that ends a line comment. -/
def skipLine (pos : Nat) : List Char → Cursor
  | [] => ⟨pos, []⟩
  | c :: cs =>
      if Text.isLineBreak c then ⟨pos, c :: cs⟩ else skipLine (pos + c.utf8Size) cs

/-- Past the mark that closes a block comment. -/
def skipBlock (newline : Bool) (pos : Nat) : List Char → Bool × Cursor
  | [] => (newline, ⟨pos, []⟩)
  | c :: cs =>
      if c = '*' ∧ cs.head? = some '/' then (newline, ⟨pos + 2, cs.tail⟩)
      else skipBlock (newline || Text.isLineBreak c) (pos + c.utf8Size) cs

theorem skipLine_eq (pos : Nat) (cs : List Char) :
    skipLine pos cs =
      ⟨pos + Text.byteLength (cs.takeWhile (!Text.isLineBreak ·)),
        cs.dropWhile (!Text.isLineBreak ·)⟩ := by
  induction cs generalizing pos with
  | nil => rfl
  | cons c cs ih =>
      by_cases line : Text.isLineBreak c = true
      · rw [skipLine, if_pos line, List.takeWhile_cons_of_neg (by simp [line]),
          List.dropWhile_cons_of_neg (by simp [line]), Text.byteLength, Nat.add_zero]
      · rw [skipLine, if_neg line, ih, List.takeWhile_cons_of_pos (by simp [line]),
          List.dropWhile_cons_of_pos (by simp [line]), Text.byteLength, Nat.add_assoc]

theorem skipBlock_eq (newline : Bool) (pos : Nat) (cs : List Char) :
    skipBlock newline pos cs =
      match Text.splitFirst? "*/".toList cs with
      | some (body, rest) =>
          (newline || body.any Text.isLineBreak, ⟨pos + Text.byteLength body + 2, rest⟩)
      | none => (newline || cs.any Text.isLineBreak, ⟨pos + Text.byteLength cs, []⟩) := by
  induction cs generalizing newline pos with
  | nil => simp [skipBlock, Text.splitFirst?, Text.byteLength]
  | cons c cs ih =>
      rw [skipBlock, Text.splitFirst?, Trivia.afterWord?_closing]
      by_cases closing : c = '*' ∧ cs.head? = some '/'
      · simp [if_pos closing, Text.byteLength]
      · rw [if_neg closing, if_neg closing, ih]
        cases Text.splitFirst? "*/".toList cs with
        | none => simp [Text.byteLength, Bool.or_assoc, Nat.add_assoc]
        | some parts => simp [Text.byteLength, Bool.or_assoc, Nat.add_assoc]

theorem skipLine_ahead_length_lt (pos : Nat) {c : Char} (cs : List Char)
    (inside : Text.isLineBreak c = false) :
    (skipLine pos (c :: cs)).ahead.length < (c :: cs).length := by
  rw [skipLine_eq, List.dropWhile_cons_of_pos (by simp [inside])]
  exact Nat.lt_succ_of_le (List.dropWhile_suffix _).length_le

theorem skipBlock_ahead_length_le (newline : Bool) (pos : Nat) (cs : List Char) :
    (skipBlock newline pos cs).2.ahead.length ≤ cs.length := by
  rw [skipBlock_eq]
  split
  · rename_i body rest closing
    exact Nat.le_of_lt (Text.splitFirst?_length_lt (by simp) closing)
  · exact Nat.zero_le _

/-- Past the blanks and comments that are ahead.  The flag is set by a line break between
comments and by one in a block comment; a line comment ends before its own. -/
def skip (newline : Bool) (pos : Nat) (cs : List Char) : Bool × Cursor :=
  match cs with
  | [] => (newline, ⟨pos, []⟩)
  | c :: cs =>
      if Text.isLineBreak c then skip true (pos + c.utf8Size) cs
      else if Trivia.isSpacing c then skip newline (pos + c.utf8Size) cs
      else if c = '/' ∧ cs.head? = some '/' then
        skip newline (skipLine pos (c :: cs)).pos (skipLine pos (c :: cs)).ahead
      else if c = '/' ∧ cs.head? = some '*' then
        let block := skipBlock newline (pos + 2) cs.tail
        skip block.1 block.2.pos block.2.ahead
      else (newline, ⟨pos, c :: cs⟩)
termination_by cs.length
decreasing_by
  · exact Nat.lt_succ_self _
  · exact Nat.lt_succ_self _
  · exact skipLine_ahead_length_lt pos cs (by simp_all)
  · refine Nat.lt_succ_of_le ((skipBlock_ahead_length_le _ _ _).trans ?_)
    exact (List.tail_suffix cs).length_le

/-- The loop passes the gap that is ahead, and its flag is whether the gap holds a line
break. -/
theorem skip_eq (newline : Bool) (pos : Nat) (cs : List Char) :
    skip newline pos cs =
      (newline || (Trivia.split .between cs).1.any Text.isLineBreak,
        ⟨pos + Text.byteLength (Trivia.split .between cs).1, (Trivia.split .between cs).2⟩) := by
  have slash : Text.isLineBreak '/' = false := rfl
  have asterisk : Text.isLineBreak '*' = false := rfl
  fun_induction skip newline pos cs with
  | case1 newline pos => simp [Trivia.split, Text.byteLength]
  | case2 newline pos c cs line ih =>
      rw [ih, Trivia.split_between_of_isSpacing (Trivia.isSpacing_of_isLineBreak line)]
      simp [line, Text.byteLength, Nat.add_assoc]
  | case3 newline pos c cs line blank ih =>
      rw [ih, Trivia.split_between_of_isSpacing blank]
      simp [line, Text.byteLength, Nat.add_assoc]
  | case4 newline pos c cs line visible comment ih =>
      obtain ⟨rfl, ahead⟩ := comment
      obtain ⟨rest, rfl⟩ := List.head?_eq_some_iff.1 ahead
      have before : (rest.takeWhile (!Text.isLineBreak ·)).any Text.isLineBreak = false :=
        List.any_eq_false.2 fun c mem => by simpa using List.mem_takeWhile_imp mem
      have gap := Trivia.split_between_lineComment rest
      rw [show "//".toList ++ rest = '/' :: '/' :: rest from rfl] at gap
      rw [ih, gap, skipLine_eq]
      simp [before, slash, Text.byteLength, Nat.add_assoc]
  | case5 newline pos c cs line visible noLine comment block ih =>
      obtain ⟨rfl, ahead⟩ := comment
      obtain ⟨rest, rfl⟩ := List.head?_eq_some_iff.1 ahead
      have size : '/'.utf8Size = 1 ∧ '*'.utf8Size = 1 := ⟨rfl, rfl⟩
      have gap := Trivia.split_between_blockComment rest
      rw [show "/*".toList ++ rest = '/' :: '*' :: rest from rfl] at gap
      have skipped : block = skipBlock newline (pos + 2) rest := rfl
      rw [skipBlock_eq] at skipped
      rw [ih, gap, skipped]
      cases Text.splitFirst? "*/".toList rest with
      | none =>
          have stop : pos + 2 + Text.byteLength rest =
              pos + Text.byteLength ('/' :: '*' :: rest) := by
            simp only [Text.byteLength, size]
            omega
          simp [Trivia.split, slash, asterisk, stop, Text.byteLength]
      | some parts =>
          have marks : "/*".toList.any Text.isLineBreak = false ∧
              "*/".toList.any Text.isLineBreak = false := ⟨rfl, rfl⟩
          have sizes : Text.byteLength "/*".toList = 2 ∧ Text.byteLength "*/".toList = 2 :=
            ⟨rfl, rfl⟩
          simp only [Text.byteLength_append, List.any_append, marks, sizes, Bool.false_or,
            Bool.or_assoc, Nat.add_assoc]
  | case6 newline pos c cs line visible noLine noBlock =>
      have ends : Trivia.Mode.between.next? c cs.head? = none := by
        rw [Trivia.Mode.next?, if_neg visible, if_neg noLine, if_neg noBlock]
      rw [Trivia.split_cons_of_next?_eq_none ends]
      simp [Text.byteLength]

end Cursor

/-- A token with its place in the encoded source, as a scanner emits it. -/
structure Located where
  kind : TokenKind
  text : List Char
  span : Span
  startsLine : Bool
  deriving DecidableEq, Repr

namespace Located

def token (located : Located) : Token :=
  ⟨located.kind, [], located.text⟩

def ofToken (token : Token) (span : Span) : Located :=
  ⟨token.kind, token.text, span, token.startsLine⟩

/-- The tokens ahead of a cursor, each from where the skipping loop stops to where the
scanner stops that reads it. -/
def scan (previous : Option Located) (pos : Nat) (cs : List Char) : List Located :=
  match _h : Cursor.skip false pos cs with
  | (_, ⟨_, []⟩) => []
  | (newline, ⟨start, c :: rest⟩) =>
      let lexeme := Lexeme.read (previous.map token) c rest
      let stop := start + Text.byteLength (c :: lexeme.more)
      let located : Located := ⟨lexeme.kind, c :: lexeme.more, ⟨start, stop⟩, newline⟩
      located :: scan (some located) stop lexeme.rest
termination_by cs.length
decreasing_by
  have hrest := Lexeme.read_rest_length_le (previous.map token) c rest
  have hgap := Trivia.split_rest_length_le .between cs
  rw [Cursor.skip_eq] at _h
  rw [(Cursor.mk.inj (Prod.mk.inj _h).2).2, List.length_cons] at hgap
  omega

/-- Read with a cursor or as gaps and texts, a source has the same tokens. -/
theorem scan_eq (previous : Option Located) (pos : Nat) (cs : List Char) :
    scan previous pos cs =
      List.zipWith ofToken (Scan.after (previous.map token) cs).tokens
        (Token.spans pos (Scan.after (previous.map token) cs).tokens) := by
  fun_induction scan previous pos cs with
  | case1 previous pos cs newline start ends =>
      rw [Cursor.skip_eq] at ends
      have atEnd := (Cursor.mk.inj (Prod.mk.inj ends).2).2
      rw [Scan.after_of_split_eq_nil atEnd]
      rfl
  | case2 previous pos cs newline start c rest begins lexeme stop located ih =>
      rw [Cursor.skip_eq, Bool.false_or] at begins
      obtain ⟨rfl, place⟩ := Prod.mk.inj begins
      obtain ⟨rfl, ahead⟩ := Cursor.mk.inj place
      have split : Trivia.split .between cs =
          ((Trivia.split .between cs).1, c :: rest) := Prod.ext rfl ahead
      have read : Lexeme.read (previous.map token) c rest =
          ⟨lexeme.kind, lexeme.more, lexeme.rest⟩ := rfl
      have regex : Lexeme.allowsRegex ((some located).map token) = Lexeme.allowsRegex
          (some ⟨lexeme.kind, (Trivia.split .between cs).1, c :: lexeme.more⟩) := rfl
      rw [ih, Scan.after_of_split_eq_cons split _ read, Scan.after_congr regex]
      rfl

end Located

/-- The flag and the positions that a scanner keeps are those that the gaps tell. -/
theorem located_scan (source : List Char) :
    Located.scan none 0 source =
      List.zipWith Located.ofToken (tokenize source) (Token.spans 0 (tokenize source)) :=
  Located.scan_eq none 0 source

end ScriptConsole

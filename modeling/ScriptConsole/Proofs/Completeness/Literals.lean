import ScriptConsole.Proofs.Completeness
import ScriptConsole.Proofs.Token.Lines
import ScriptConsole.Proofs.Token.Templates

/-!
# The literals of a complete source

The completeness check takes a literal for closed if its last character is the mark
that it opens with.  That is right of every literal but one that the source ends
in: there the mark may be behind a backslash, or in the code of a substitution
that is open.  Of comments the check sees nothing.
-/

namespace ScriptConsole

namespace Nested

/-- Quoted text that is not closed; the end of the source may leave a backslash alone. -/
theorem exists_quoted_of_not_closed {quote : Char} {mode : Mode} {cs : List Char}
    (level : mode = .quoted quote ∨ mode = .quotedEscape quote)
    (opened : (read [mode] cs).closed = false) :
    ∃ body last, Quoted quote body ∧ (last = [] ∨ last = ['\\']) ∧
      mode.pending ++ cs = body ++ last := by
  induction cs generalizing mode with
  | nil =>
      rcases level with rfl | rfl
      · exact ⟨[], [], .nil, .inl rfl, rfl⟩
      · exact ⟨[], ['\\'], .nil, .inr rfl, rfl⟩
  | cons c cs ih =>
      rw [read_cons, Reading.closed_prepend, List.append_nil] at opened
      rcases level with rfl | rfl
      · rw [Mode.step] at opened
        split at opened
        · rename_i escape
          obtain ⟨body, last, within, ends, whole⟩ := ih (.inr rfl) opened
          exact ⟨body, last, within, ends, by rw [escape]; exact whole⟩
        · rename_i noEscape
          split at opened
          · cases cs <;> cases opened
          · rename_i goesOn
            obtain ⟨body, last, within, ends, whole⟩ := ih (.inl rfl) opened
            exact ⟨c :: body, last, .plain ⟨noEscape, not_or.1 goesOn⟩ within, ends,
              congrArg (c :: ·) whole⟩
      · obtain ⟨body, last, within, ends, whole⟩ := ih (.inl rfl) opened
        exact ⟨'\\' :: c :: body, last, .escaped c within, ends,
          congrArg ('\\' :: c :: ·) whole⟩

theorem Quoted.exists_of_getLast? {quote : Char} {body : List Char} (quoted : Quoted quote body)
    (last : body.getLast? = some quote) :
    ∃ front, Quoted quote front ∧ body = front ++ ['\\', quote] := by
  induction quoted with
  | nil => cases last
  | @plain c cs visible more ih =>
      cases cs with
      | nil => exact absurd (Option.some.inj last) visible.2.1
      | cons d cs =>
          obtain ⟨front, within, whole⟩ := ih last
          exact ⟨c :: front, .plain visible within, congrArg (c :: ·) whole⟩
  | @escaped c cs more ih =>
      cases cs with
      | nil =>
          obtain rfl := Option.some.inj last
          exact ⟨[], .nil, rfl⟩
      | cons d cs =>
          obtain ⟨front, within, whole⟩ := ih last
          exact ⟨'\\' :: c :: front, .escaped c within, congrArg ('\\' :: c :: ·) whole⟩

end Nested

namespace Template

open Nested (Code Inside)

theorem Chunk.exists_of_getLast? {cs : List Char} (isChunk : Chunk cs)
    (last : cs.getLast? = some '\x60') :
    ∃ front, Chunk front ∧ cs = front ++ ['\\', '\x60'] := by
  induction isChunk with
  | nil => cases last
  | @plain c cs visible text more ih =>
      cases cs with
      | nil => exact absurd (Option.some.inj last) visible.2
      | cons d cs =>
          obtain ⟨front, isChunk, whole⟩ := ih last
          refine ⟨c :: front, .plain visible ?_ isChunk, congrArg (c :: ·) whole⟩
          rintro ⟨dollar, brace⟩
          exact text ⟨dollar, by rw [whole, List.head?_append, brace]; rfl⟩
  | @escaped c cs more ih =>
      cases cs with
      | nil =>
          obtain rfl := Option.some.inj last
          exact ⟨[], .nil, rfl⟩
      | cons d cs =>
          obtain ⟨front, isChunk, whole⟩ := ih last
          exact ⟨'\\' :: c :: front, .escaped c isChunk, congrArg ('\\' :: c :: ·) whole⟩

/-- A chunk in front of the inside of a template, if no substitution comes of it. -/
theorem Chunk.inside_append {cs rest : List Char} (isChunk : Chunk cs) (inside : Inside rest)
    (follows : rest.head? ≠ some '{') : Inside (cs ++ rest) := by
  induction isChunk with
  | nil => exact inside
  | @plain c cs visible text more ih =>
      refine .plain visible ?_ ih
      rintro ⟨dollar, brace⟩
      cases cs with
      | nil => exact follows brace
      | cons d cs => exact text ⟨dollar, brace⟩
  | escaped c more ih => exact .escaped c ih

/-- How a template that is cut off can end with a mark: behind a backslash, or in the code
of a substitution. -/
inductive LastMark : List Char → Prop where
  | escaped : LastMark ['\\', '\x60']
  | substitution {code : List Char} (unclosed : Unclosed code)
      (last : code.getLast? = some '\x60') : LastMark ('$' :: '{' :: code)

theorem LastMark.getLast? {cs : List Char} (mark : LastMark cs) : cs.getLast? = some '\x60' := by
  cases mark with
  | escaped => rfl
  | substitution unclosed last => simp [List.getLast?_cons, last]

theorem LastMark.read_eq {cs : List Char} (mark : LastMark cs) :
    Nested.read [.template] cs = ⟨cs, [], false⟩ := by
  cases mark with
  | escaped => rfl
  | substitution unclosed last => exact read_substitution_of_unclosed unclosed

theorem LastMark.head?_ne {cs : List Char} (mark : LastMark cs) : cs.head? ≠ some '{' := by
  cases mark <;> simp

theorem Decomposes.exists_lastMark {closed : Bool} {cs : List Char} {parts : List (List Char)}
    (decomposes : Decomposes closed cs parts) (cutOff : closed = false)
    (last : cs.getLast? = some '\x60') :
    ∃ inside mark, Inside inside ∧ LastMark mark ∧ cs = inside ++ mark := by
  induction decomposes with
  | mark => cases cutOff
  | @cut cs ending isChunk escape =>
      rcases escape with rfl | rfl
      · rw [List.append_nil] at last ⊢
        obtain ⟨front, frontIsChunk, rfl⟩ := isChunk.exists_of_getLast? last
        exact ⟨front, _, frontIsChunk.inside, .escaped, rfl⟩
      · simp at last
  | @substitution closed cs code more parts isChunk within others ih =>
      have whole : cs ++ '$' :: '{' :: (code ++ '}' :: more) =
          (cs ++ '$' :: '{' :: code) ++ ['}'] ++ more := by simp
      have lastOfMore : more.getLast? = some '\x60' := by
        rw [whole, List.getLast?_append, List.getLast?_append] at last
        cases h : more.getLast? <;> simp_all
      obtain ⟨inside, mark, isInside, isLast, rfl⟩ := ih cutOff lastOfMore
      refine ⟨cs ++ '$' :: '{' :: (code ++ '}' :: inside), mark,
        isChunk.inside_append (.substitution within isInside) (by simp), isLast, by simp⟩
  | @opened cs code isChunk unclosed =>
      have nonempty : code ≠ [] := by
        rintro rfl
        simp at last
      obtain ⟨c, code, rfl⟩ := List.exists_cons_of_ne_nil nonempty
      refine ⟨cs, _, isChunk.inside, .substitution unclosed ?_, rfl⟩
      simpa [List.getLast?_append, List.getLast?_cons_cons] using last

end Template

namespace Completeness

open ScriptConsole.Bracket (Nested)
open ScriptConsole.Nested (Quoted Inside)
open ScriptConsole.Template (LastMark Decomposes)
open Token (marks)

/-- Literals that their own closing mark has ended. -/
inductive Closed : TokenKind → List Char → Prop where
  | string {quote : Char} {body : List Char} (mark : quote = '\'' ∨ quote = '"')
      (within : Quoted quote body) : Closed .string (quote :: (body ++ [quote]))
  | template {inside : List Char} (within : Inside inside) :
      Closed .template ('\x60' :: (inside ++ ['\x60']))

/-- Literals that are open, although they end with the character that could close them. -/
inductive SeemsClosed : TokenKind → List Char → Prop where
  | string {quote : Char} {body : List Char} (mark : quote = '\'' ∨ quote = '"')
      (within : Quoted quote body) : SeemsClosed .string (quote :: (body ++ ['\\', quote]))
  | template {inside mark : List Char} (within : Inside inside) (last : LastMark mark) :
      SeemsClosed .template ('\x60' :: (inside ++ mark))

theorem Closed.isOpenLiteral_eq_false {kind : TokenKind} {text : List Char}
    (closed : Closed kind text) : Lexeme.isOpenLiteral kind text = false := by
  cases closed with
  | string mark within => simp [Lexeme.isOpenLiteral, within.read_eq mark (.inl rfl)]
  | template within => simp [Lexeme.isOpenLiteral, within.read_eq]

theorem SeemsClosed.isOpenLiteral {kind : TokenKind} {text : List Char}
    (seems : SeemsClosed kind text) : Lexeme.isOpenLiteral kind text = true := by
  cases seems with
  | @string quote body mark within =>
      have ending : Nested.read [.quoted quote] ['\\', quote] = ⟨['\\', quote], [], false⟩ := rfl
      simp only [Lexeme.isOpenLiteral, within.read_append, ending]
      rfl
  | template within last =>
      simp only [Lexeme.isOpenLiteral, within.read_append last.head?_ne, last.read_eq]
      rfl

theorem Closed.isDelimited {kind : TokenKind} {text : List Char} (closed : Closed kind text) :
    isDelimited text = true := by
  cases closed <;> simp [Completeness.isDelimited]

theorem SeemsClosed.isDelimited {kind : TokenKind} {text : List Char}
    (seems : SeemsClosed kind text) : isDelimited text = true := by
  cases seems with
  | string => simp [Completeness.isDelimited]
  | template within last => simp [Completeness.isDelimited, last.getLast?]

theorem isDelimited_iff_of_read {previous : Option Token} {c : Char} {kind : TokenKind}
    {more rest : List Char}
    (read : Lexeme.read previous c (more ++ rest) = ⟨kind, more, rest⟩)
    (literal : kind = .string ∨ kind = .template) :
    isDelimited (c :: more) = true ↔ Closed kind (c :: more) ∨ SeemsClosed kind (c :: more) := by
  refine ⟨fun delimited => ?_, fun h => h.elim Closed.isDelimited SeemsClosed.isDelimited⟩
  have last : more.getLast? = some c := by simpa [isDelimited] using delimited
  cases opened : Lexeme.isOpenLiteral kind (c :: more) with
  | false =>
      left
      rcases literal with rfl | rfl
      · obtain ⟨mark, body, ending, within, -, rfl⟩ := Lexeme.exists_quoted_of_read read opened
        obtain rfl : ending = c := by simpa using last
        exact .string mark within
      · obtain ⟨rfl, inside, within, rfl⟩ := Lexeme.exists_inside_of_read read opened
        exact .template within
  | true =>
      right
      cases Lexeme.Reads.of_read read with
      | quoted mark =>
          have notClosed : (Nested.read [.quoted c] more).closed = false := by
            simpa [Lexeme.isOpenLiteral] using opened
          obtain ⟨body, ending, within, escape, whole⟩ :=
            Nested.exists_quoted_of_not_closed (.inl rfl) notClosed
          obtain rfl : more = body ++ ending := whole
          rcases escape with rfl | rfl
          · rw [List.append_nil] at last ⊢
            obtain ⟨front, quoted, rfl⟩ := within.exists_of_getLast? last
            exact .string mark quoted
          · obtain rfl : c = '\\' := by simpa using last.symm
            simp at mark
      | template mark text left =>
          subst mark
          have notClosed : (Nested.read [.template] more).closed = false := by
            simpa [Lexeme.isOpenLiteral] using opened
          have alone : (Nested.read [.template] more).text = more := by
            rw [← text, Nested.read_text]
          have parts := Template.decomposes_read more
          rw [alone] at parts
          obtain ⟨inside, mark, within, isLast, rfl⟩ := parts.exists_lastMark notClosed last
          exact .template within isLast
      | name => simp at literal
      | number => simp at literal
      | regex => simp at literal
      | slash => simp at literal
      | mark => simp at literal

theorem isBroken_eq_not_isDelimited {token : Token}
    (literal : token.kind = .string ∨ token.kind = .template) :
    isBroken token = !isDelimited token.text := by
  rcases literal with kind | kind <;> simp [isBroken, kind]

/-- A literal of a source passes the check if it is closed, or if it only seems to be and the
source ends in it. -/
theorem isBroken_eq_false_iff {source : List Char} {left right : List Token} {token : Token}
    (whole : tokenize source = left ++ token :: right)
    (literal : token.kind = .string ∨ token.kind = .template) :
    isBroken token = false ↔ Closed token.kind token.text ∨
      (SeemsClosed token.kind token.text ∧ ¬Closed token.kind token.text ∧ right = [] ∧
        (Scan.ofSource source).trailing = []) := by
  have scanned := scanned_tokenize source
  obtain ⟨previous, c, more, rest, text, read⟩ := scanned.exists_read
    (whole ▸ List.mem_append_right left List.mem_cons_self)
  rw [isBroken_eq_not_isDelimited literal, Bool.not_eq_false', text,
    isDelimited_iff_of_read read literal]
  refine or_congr_right ⟨fun seems => ⟨seems, fun closed => ?_, ?_⟩, fun h => h.1⟩
  · have both := closed.isOpenLiteral_eq_false
    rw [seems.isOpenLiteral] at both
    cases both
  · rw [whole] at scanned
    exact scanned.eq_nil_of_isOpenLiteral (text ▸ seems.isOpenLiteral)

/-- Which sources are complete, said of their brackets and literals: a literal has its own closing
mark, or the source ends in it with a mark that closes nothing.  Comments are not looked at,
whether they are closed or not. -/
theorem check_eq_none_iff_closed (source : List Char) :
    (check source = none ↔ Nested (marks (tokenize source)) ∧
      ∀ left token right, tokenize source = left ++ token :: right →
        token.kind = .string ∨ token.kind = .template →
          Closed token.kind token.text ∨
            (SeemsClosed token.kind token.text ∧ ¬Closed token.kind token.text ∧ right = [] ∧
              (Scan.ofSource source).trailing = [])) ∧
    check (lineByLine (tokenize source)) = check source := by
  constructor
  · rw [check_eq_none_iff, and_comm]
    refine and_congr_right fun _ => ⟨fun closed left token right whole literal => ?_, ?_⟩
    · exact (isBroken_eq_false_iff whole literal).1
        (closed token (whole ▸ List.mem_append_right left List.mem_cons_self))
    · intro closed token mem
      obtain ⟨left, right, whole⟩ := List.append_of_mem mem
      by_cases literal : token.kind = .string ∨ token.kind = .template
      · exact (isBroken_eq_false_iff whole literal).2 (closed left token right whole literal)
      · rw [not_or] at literal
        simp [isBroken, literal]
  · have same := (scanned_tokenize source).bareAfter_lineByLine rfl
    rw [check, check, ← checkWithin_map_bare, ← checkWithin_map_bare [] (tokenize source)]
    exact congrArg (checkWithin []) same

/-- A quote behind a backslash, the mark of a template in an open substitution and a comment
that is not closed are all taken for complete. -/
theorem check_eq_none_of_open :
    (check "'a\\'".toList = none ∧ tokenize "'a\\'".toList = [⟨.string, [], "'a\\'".toList⟩] ∧
      ¬Closed .string "'a\\'".toList) ∧
    (check "\x60$\x7b\x60".toList = none ∧
      tokenize "\x60$\x7b\x60".toList = [⟨.template, [], "\x60$\x7b\x60".toList⟩] ∧
      ¬Closed .template "\x60$\x7b\x60".toList) ∧
    (check "a /* b".toList = none ∧
      Trivia.opensComment (Scan.ofSource "a /* b".toList).trailing = true) := by
  have string : Scan.ofSource "'a\\'".toList = ⟨[⟨.string, [], "'a\\'".toList⟩], []⟩ :=
    Scan.ofSource_of_within (by decide : Scan.within 2 none _ = _)
  have template : Scan.ofSource "\x60$\x7b\x60".toList =
      ⟨[⟨.template, [], "\x60$\x7b\x60".toList⟩], []⟩ :=
    Scan.ofSource_of_within (by decide : Scan.within 2 none _ = _)
  have comment : Scan.ofSource "a /* b".toList =
      ⟨[⟨.identifier, [], ['a']⟩], " /* b".toList⟩ :=
    Scan.ofSource_of_within (by decide : Scan.within 2 none _ = _)
  have opened {kind : TokenKind} {text : List Char} (h : Lexeme.isOpenLiteral kind text = true) :
      ¬Closed kind text := fun closed => by
    rw [closed.isOpenLiteral_eq_false] at h
    cases h
  refine ⟨⟨?_, congrArg Scan.tokens string, opened (by decide)⟩,
    ⟨?_, congrArg Scan.tokens template, opened (by decide)⟩, ?_, ?_⟩
  · rw [check, tokenize, string]
    rfl
  · rw [check, tokenize, template]
    rfl
  · rw [check, tokenize, comment]
    rfl
  · rw [comment]
    rfl

end Completeness

end ScriptConsole

import ScriptConsole.Proofs.Token.Literals
import ScriptConsole.Proofs.Token.Runs
import ScriptConsole.Token.Template

/-!
# The parts of a template

A template is cut into chunks of text and the code of its substitutions, and the
cut loses nothing: put together again, with the marks between them, the parts
are the template.  Both readers of a template stop at the same character.
-/

namespace ScriptConsole

namespace Template

open Nested (Code Inside Reading)

/-- Text of a template in which every mark and every opening of a substitution is behind
a backslash. -/
inductive Chunk : List Char → Prop where
  | nil : Chunk []
  | plain {c : Char} {cs : List Char} (visible : c ≠ '\\' ∧ c ≠ '\x60')
      (text : ¬(c = '$' ∧ cs.head? = some '{')) (more : Chunk cs) : Chunk (c :: cs)
  | escaped (c : Char) {cs : List Char} (more : Chunk cs) : Chunk ('\\' :: c :: cs)

theorem Chunk.inside {cs : List Char} (chunk : Chunk cs) : Inside cs := by
  induction chunk with
  | nil => exact .nil
  | plain visible text more ih => exact .plain visible text ih
  | escaped c more ih => exact .escaped c ih

/-- Code in which no brace closes the substitution. -/
def Unclosed (code : List Char) : Prop :=
  ∀ inner rest, code = inner ++ '}' :: rest → ¬Code inner

theorem unclosed_iff {code : List Char} :
    Unclosed code ↔ (Nested.read [.code] code).closed = false := by
  rw [Bool.eq_false_iff, ne_eq, Nested.closed_code_iff]
  constructor
  · rintro unclosed ⟨inner, rest, within, whole⟩
    exact unclosed inner rest whole within
  · exact fun opened inner rest whole within => opened ⟨inner, rest, within, whole⟩

/-- A template after its opening mark, closed or cut off by the end of its source, and the
code of its substitutions. -/
inductive Decomposes : (closed : Bool) → List Char → List (List Char) → Prop where
  | mark {cs : List Char} (chunk : Chunk cs) : Decomposes true (cs ++ ['\x60']) []
  /-- The end of the source may leave a backslash alone. -/
  | cut {cs last : List Char} (chunk : Chunk cs) (escape : last = [] ∨ last = ['\\']) :
      Decomposes false (cs ++ last) []
  | substitution {closed : Bool} {cs code more : List Char} {parts : List (List Char)}
      (chunk : Chunk cs) (within : Code code) (others : Decomposes closed more parts) :
      Decomposes closed (cs ++ '$' :: '{' :: (code ++ '}' :: more)) (code :: parts)
  /-- No brace closes the last substitution. -/
  | opened {cs code : List Char} (chunk : Chunk cs) (unclosed : Unclosed code) :
      Decomposes false (cs ++ '$' :: '{' :: code) [code]

/-- Where a chunk ends: at the mark, at a substitution, or with its source. -/
inductive Ends (cs : List Char) : List Char × List Char → Prop where
  | mark {text rest : List Char} (chunk : Chunk text) (whole : cs = text ++ '\x60' :: rest) :
      Ends cs (text, '\x60' :: rest)
  | substitution {text rest : List Char} (chunk : Chunk text)
      (whole : cs = text ++ '$' :: '{' :: rest) : Ends cs (text, '$' :: '{' :: rest)
  | cut {text last : List Char} (chunk : Chunk text) (escape : last = [] ∨ last = ['\\'])
      (whole : cs = text ++ last) : Ends cs (cs, [])

theorem Ends.prepend (front : List Char) {cs : List Char} {parts : List Char × List Char}
    (ends : Ends cs parts) (add : ∀ {text rest : List Char}, cs = text ++ rest → Chunk text →
      Chunk (front ++ text)) : Ends (front ++ cs) (front ++ parts.1, parts.2) := by
  cases ends with
  | mark chunk whole => exact .mark (add whole chunk) (by simp [whole])
  | substitution chunk whole => exact .substitution (add whole chunk) (by simp [whole])
  | cut chunk escape whole => exact .cut (add whole chunk) escape (by simp [whole])

theorem ends_chunk (cs : List Char) : Ends cs (chunk cs) := by
  fun_induction chunk cs with
  | case1 => exact .cut .nil (.inl rfl) rfl
  | case2 => exact .cut .nil (.inr rfl) rfl
  | case3 c cs ih => exact ih.prepend ['\\', c] fun _ chunk => .escaped c chunk
  | case4 c cs lone escape stops =>
      rcases stops with rfl | ⟨rfl, brace⟩
      · exact .mark .nil rfl
      · obtain ⟨rest, rfl⟩ := List.head?_eq_some_iff.1 brace
        exact .substitution .nil rfl
  | case5 c cs lone escape goesOn ih =>
      rw [not_or] at goesOn
      have noEscape : c ≠ '\\' := by
        rintro rfl
        cases cs with
        | nil => exact lone rfl rfl
        | cons d cs => exact escape d cs rfl rfl
      refine ih.prepend [c] fun {text rest} whole isChunk =>
        .plain ⟨noEscape, goesOn.1⟩ ?_ isChunk
      rintro ⟨dollar, brace⟩
      have ahead : text.head? = some '{' := brace
      exact goesOn.2 ⟨dollar, by rw [whole, List.head?_append, ahead]; rfl⟩

/-- A chunk is found again whatever follows it. -/
theorem Chunk.chunk_append {text rest : List Char} (isChunk : Chunk text)
    (follows : rest.head? ≠ some '{') :
    chunk (text ++ rest) = (text ++ (chunk rest).1, (chunk rest).2) := by
  induction isChunk with
  | nil => rfl
  | @plain c cs visible text more ih =>
      have goesOn : ¬(c = '\x60' ∨ (c = '$' ∧ (cs ++ rest).head? = some '{')) := by
        rintro (mark | ⟨dollar, brace⟩)
        · exact visible.2 mark
        · cases cs with
          | nil => exact follows brace
          | cons d cs => exact text ⟨dollar, brace⟩
      rw [List.cons_append, chunk, if_neg goesOn, ih]
      · rfl
      · exact fun escape _ => visible.1 escape
      · exact fun _ _ escape _ => visible.1 escape
  | @escaped c cs more ih =>
      rw [List.cons_append, List.cons_append, chunk, ih]
      rfl

theorem code_append {inner : List Char} (within : Code inner) (rest : List Char) :
    code (inner ++ '}' :: rest) = inner ∧ afterCode (inner ++ '}' :: rest) = rest := by
  rw [code, afterCode, within.read_eq]
  simp

theorem code_of_unclosed {cs : List Char} (unclosed : Unclosed cs) :
    code cs = cs ∧ afterCode cs = [] := by
  have reading := Nested.read_append_of_not_closed (unclosed_iff.1 unclosed) []
  rw [List.append_nil] at reading
  simp [code, afterCode, reading]

theorem substitutionsFrom_of_substitution {cs text rest : List Char}
    (h : chunk cs = (text, '$' :: '{' :: rest)) :
    substitutionsFrom cs = code rest :: substitutionsFrom (afterCode rest) := by
  rw [substitutionsFrom]
  split
  · rename_i whole
    rw [h] at whole
    cases whole
    rfl
  · rename_i other
    exact absurd (by rw [h]) (other '{' rest)

theorem substitutionsFrom_of_end {cs text rest : List Char} (h : chunk cs = (text, rest))
    (ends : rest.head? ≠ some '$') : substitutionsFrom cs = [] := by
  rw [substitutionsFrom]
  split
  · rename_i whole
    rw [h] at whole
    simp only at whole
    rw [whole] at ends
    exact absurd rfl ends
  · rfl

theorem read_substitution (rest : List Char) :
    Nested.read [.template] ('$' :: '{' :: rest) =
      (Nested.read [.code, .template] rest).prepend ['$', '{'] := rfl

theorem read_substitution_append {inner : List Char} (within : Code inner) (rest : List Char) :
    Nested.read [.template] ('$' :: '{' :: (inner ++ '}' :: rest)) =
      (Nested.read [.template] rest).prepend ('$' :: '{' :: (inner ++ ['}'])) := by
  have closing : Nested.read [.code, .template] ('}' :: rest) =
      (Nested.read [.template] rest).prepend ['}'] := rfl
  rw [read_substitution, within.read_append, closing]
  simp

theorem read_substitution_of_unclosed {inner : List Char} (unclosed : Unclosed inner) :
    Nested.read [.template] ('$' :: '{' :: inner) = ⟨'$' :: '{' :: inner, [], false⟩ := by
  have reading : Nested.read [.code, .template] inner = ⟨inner, [], false⟩ :=
    Nested.read_append_of_not_closed (unclosed_iff.1 unclosed) [.template]
  rw [read_substitution, reading]
  rfl

/-- The text that the reader takes for a template is the one that its parts cover. -/
theorem decomposes_read (cs : List Char) :
    Decomposes (Nested.read [.template] cs).closed (Nested.read [.template] cs).text
      (substitutionsFrom cs) := by
  -- A substitution is passed in one piece, so that what is left is shorter, but no tail.
  induction length : cs.length using Nat.strongRecOn generalizing cs with
  | _ n ih =>
      subst length
      have found := ends_chunk cs
      cases parts : chunk cs with
      | mk text stop =>
          rw [parts] at found
          cases found with
          | mark isChunk whole =>
              rw [substitutionsFrom_of_end parts (by simp), whole, isChunk.inside.read_eq]
              exact .mark isChunk
          | cut isChunk escape whole =>
              rw [substitutionsFrom_of_end parts (by simp), whole]
              rcases escape with rfl | rfl
              · rw [isChunk.inside.read_append (by simp)]
                exact .cut isChunk (.inl rfl)
              · rw [isChunk.inside.read_append (by simp)]
                exact .cut isChunk (.inr rfl)
          | @substitution _ rest isChunk whole =>
              rw [substitutionsFrom_of_substitution parts]
              by_cases closed : (Nested.read [.code] rest).closed = true
              · obtain ⟨inner, after, within, rfl⟩ := Nested.closed_code_iff.1 closed
                have shorter : after.length < cs.length := by
                  simp [whole]
                  omega
                have others := ih _ shorter after rfl
                rw [whole, isChunk.inside.read_append (by simp), read_substitution_append within,
                  (code_append within after).1, (code_append within after).2,
                  Reading.prepend_prepend]
                have all := Decomposes.substitution isChunk within others
                simpa using all
              · have unclosed : Unclosed rest := unclosed_iff.2 (Bool.eq_false_iff.2 closed)
                have nothing : substitutionsFrom [] = [] :=
                  substitutionsFrom_of_end rfl (by simp)
                rw [whole, isChunk.inside.read_append (by simp),
                  read_substitution_of_unclosed unclosed, (code_of_unclosed unclosed).1,
                  (code_of_unclosed unclosed).2, nothing]
                exact .opened isChunk unclosed

/-- The walk over the parts of a template stops at the mark that closes it. -/
theorem Decomposes.substitutionsFrom_append {closed : Bool} {cs : List Char}
    {parts : List (List Char)} (decomposes : Decomposes closed cs parts) (isClosed : closed = true)
    (rest : List Char) : substitutionsFrom (cs ++ rest) = parts := by
  induction decomposes with
  | @mark cs isChunk =>
      have stop : chunk ('\x60' :: rest) = ([], '\x60' :: rest) := by simp [chunk]
      have found := isChunk.chunk_append (by simp : ('\x60' :: rest).head? ≠ some '{')
      rw [stop] at found
      rw [List.append_assoc]
      exact substitutionsFrom_of_end found (by simp)
  | cut => cases isClosed
  | @substitution closed cs inner more parts isChunk within others ih =>
      have stop : chunk ('$' :: '{' :: (inner ++ '}' :: (more ++ rest))) =
          ([], '$' :: '{' :: (inner ++ '}' :: (more ++ rest))) := by simp [chunk]
      have found := isChunk.chunk_append
        (by simp : ('$' :: '{' :: (inner ++ '}' :: (more ++ rest))).head? ≠ some '{')
      rw [stop] at found
      have whole : cs ++ '$' :: '{' :: (inner ++ '}' :: more) ++ rest =
          cs ++ '$' :: '{' :: (inner ++ '}' :: (more ++ rest)) := by simp
      rw [whole, substitutionsFrom_of_substitution found, (code_append within _).1,
        (code_append within _).2, ih isClosed]
  | opened => cases isClosed

/-- A template in a source is its opening mark, chunks and substitutions in turn, and the mark
that closes it unless the source ends first; past that mark nothing is read. -/
theorem decomposes_substitutions {source : List Char} {token : Token}
    (mem : token ∈ tokenize source) (isTemplate : token.kind = .template) :
    ∃ more, token.text = '\x60' :: more ∧
      Decomposes (!Lexeme.isOpenLiteral .template token.text) more (substitutions token.text) ∧
      (Lexeme.isOpenLiteral .template token.text = false →
        ∀ rest, substitutions (token.text ++ rest) = substitutions token.text) := by
  obtain ⟨previous, c, more, rest, text, read⟩ := (scanned_tokenize source).exists_read mem
  rw [isTemplate] at read
  obtain ⟨rfl, reading⟩ : c = '\x60' ∧ (Nested.read [.template] (more ++ rest)).text = more := by
    cases Lexeme.Reads.of_read read with
    | template mark text left => exact ⟨mark, text⟩
  have alone := Nested.read_text [.template] (more ++ rest)
  rw [reading] at alone
  have parts := decomposes_read more
  rw [alone] at parts
  have closed : (!Lexeme.isOpenLiteral .template ('\x60' :: more)) =
      (Nested.read [.template] (more ++ rest)).closed := by
    simp [Lexeme.isOpenLiteral, alone]
  rw [text]
  refine ⟨more, rfl, closed ▸ parts, fun ended rest' => ?_⟩
  rw [ended] at closed
  exact parts.substitutionsFrom_append closed.symm rest'

/-- A template within the substitution of a template, and code after both. -/
theorem decomposes_substitutions_nested :
    let text := "\x60a $\x7b\x7bb: \x60c$\x7bd\x7d\x60\x7d.b\x7d e\x60".toList
    let token : Token := ⟨.template, [], text⟩
    token ∈ tokenize (text ++ " + 1".toList) ∧ token.kind = .template ∧
      ∃ more, text = '\x60' :: more ∧ Decomposes true more (substitutions text) ∧
        ∀ rest, substitutions (text ++ rest) = substitutions text := by
  intro text token
  have scanned : Scan.ofSource (text ++ " + 1".toList) =
      ⟨[token, ⟨.punctuator, [' '], ['+']⟩, ⟨.number, [' '], ['1']⟩], []⟩ :=
    Scan.ofSource_of_within (by decide : Scan.within 4 none (text ++ " + 1".toList) = _)
  have mem : token ∈ tokenize (text ++ " + 1".toList) := by
    rw [tokenize, scanned]
    exact List.mem_cons_self
  have closed : Lexeme.isOpenLiteral .template text = false := by decide
  obtain ⟨more, whole, parts, stops⟩ := decomposes_substitutions mem rfl
  rw [closed] at parts
  exact ⟨mem, rfl, more, whole, parts, stops closed⟩

end Template

end ScriptConsole

import ScriptConsole.Proofs.Import.Reading
import ScriptConsole.Proofs.Token.Places
import ScriptConsole.SourceMap

/-!
# The tokens of patched code

The mark of a source map comment is found by its text alone.  Where it stands in a
comment, to patch it keeps the tokens if the code after the comment is read as before; in a
literal it always changes them.
-/

namespace ScriptConsole.SourceMap

open Token Trivia

def mark : List Char :=
  '/' :: '/' :: opening

/-- What is put in the place of a mark and its line, before code `rest`. -/
def block (line rest : List Char) : List Char :=
  '/' :: '*' :: '*' :: (opening ++ (Text.trimEnd line ++ (' ' :: '*' :: '/' :: rest)))

theorem patch_of_splitFirst? {code before after : List Char}
    (found : Text.splitFirst? mark code = some (before, after)) :
    patch code = before ++
      block (after.takeWhile (· != '\n')) (after.dropWhile (· != '\n')) := by
  have closes : Text.OpensVisibly opening.reverse := Text.opensVisibly_cons.2 (by decide)
  have found : Text.splitFirst? ('/' :: '/' :: opening) code = some (before, after) := found
  rw [patch, found]
  dsimp only
  rw [Text.trimEnd_append closes, block]
  simp

/-! ## Behind the comment of a mark -/

theorem isLineBreak_of_mem_opening : ∀ c ∈ opening, Text.isLineBreak c = false :=
  forall_mem_of_all (by decide)

theorem pastLine_opening (cs : List Char) : pastLine (opening ++ cs) = pastLine cs :=
  pastLine_append isLineBreak_of_mem_opening cs

theorem pastBlock_opening (cs : List Char) : pastBlock (opening ++ cs) = pastBlock cs := by
  have inside : ∀ (text : List Char), '*' ∉ text → pastBlock (text ++ cs) = pastBlock cs := by
    intro text
    induction text with
    | nil => exact fun _ => rfl
    | cons c text ih =>
        intro free
        rw [List.mem_cons, not_or] at free
        rw [List.cons_append, pastBlock_cons_of_ne fun closing => free.1 closing.1.symm, ih free.2]
  exact inside opening (by decide)

/-- The code behind the comment of a mark in a gap, which opens a line comment or stands in
a comment. -/
def behindMark : Mode → List Char → List Char
  | .between, cs | .lineComment, cs => pastLine cs
  | .blockComment, cs => pastBlock cs
  | .blockOpening, cs | .blockClosing, cs => cs

/-- The code behind what is put in the place of the mark, which opens a block comment or
stands in a comment. -/
def behindBlock : Mode → List Char → List Char
  | .lineComment, cs => pastLine cs
  | .between, cs | .blockComment, cs => pastBlock cs
  | .blockOpening, cs | .blockClosing, cs => cs

/-- A mark that stands in a gap, and not at the end of a block comment. -/
def InComment (gap : List Char) (mode : Mode) : Prop :=
  reaches .between gap '/' = some mode ∧ mode ≠ .blockClosing

theorem bareAfter_mark {gap : List Char} {mode : Mode} (within : InComment gap mode)
    (previous : Option Token) (cs : List Char) :
    Scan.bareAfter previous (gap ++ (mark ++ cs)) =
      Scan.bareAfter previous (behindMark mode cs) := by
  obtain ⟨reached, inside⟩ := within
  have read := Scan.bareAfter_of_reaches reached previous ('/' :: (opening ++ cs))
  refine (read : Scan.bareAfter previous (gap ++ (mark ++ cs)) = _).trans ?_
  cases mode with
  | between =>
      have opened : (split .between ('/' :: '/' :: (opening ++ cs))).2 =
          (split .lineComment (opening ++ cs)).2 := rfl
      rw [opened, Scan.bareAfter_lineComment, pastLine_opening, behindMark]
  | lineComment =>
      have further : pastLine ('/' :: '/' :: (opening ++ cs)) = pastLine (opening ++ cs) := rfl
      rw [Scan.bareAfter_lineComment, further, pastLine_opening, behindMark]
  | blockComment =>
      have further : pastBlock ('/' :: '/' :: (opening ++ cs)) = pastBlock (opening ++ cs) := by
        rw [pastBlock_cons_of_ne (by simp), pastBlock_cons_of_ne (by simp)]
      rw [Scan.bareAfter_blockComment, further, pastBlock_opening, behindMark]
  | blockOpening => exact absurd rfl (reached_ne_blockOpening reached (by decide) (by simp))
  | blockClosing => exact absurd rfl inside

theorem bareAfter_block {gap : List Char} {mode : Mode} (within : InComment gap mode)
    (previous : Option Token) (line rest : List Char) :
    Scan.bareAfter previous (gap ++ block line rest) =
      Scan.bareAfter previous
        (behindBlock mode (Text.trimEnd line ++ (' ' :: '*' :: '/' :: rest))) := by
  obtain ⟨reached, inside⟩ := within
  generalize hcs : Text.trimEnd line ++ (' ' :: '*' :: '/' :: rest) = cs
  have read := Scan.bareAfter_of_reaches reached previous ('*' :: '*' :: (opening ++ cs))
  have same : block line rest = '/' :: '*' :: '*' :: (opening ++ cs) := by rw [block, hcs]
  rw [same, read]
  have visible : (opening ++ cs).head? = some '#' := rfl
  have asterisk : pastBlock ('*' :: (opening ++ cs)) = pastBlock (opening ++ cs) :=
    pastBlock_cons_of_ne (by simp [visible])
  cases mode with
  | between =>
      have opened : (split .between ('/' :: '*' :: '*' :: (opening ++ cs))).2 =
          (split .blockComment ('*' :: (opening ++ cs))).2 := rfl
      rw [opened, Scan.bareAfter_blockComment, asterisk, pastBlock_opening, behindBlock]
  | lineComment =>
      have further : pastLine ('/' :: '*' :: '*' :: (opening ++ cs)) =
          pastLine (opening ++ cs) := rfl
      rw [Scan.bareAfter_lineComment, further, pastLine_opening, behindBlock]
  | blockComment =>
      have further : pastBlock ('/' :: '*' :: '*' :: (opening ++ cs)) =
          pastBlock ('*' :: (opening ++ cs)) := by
        rw [pastBlock_cons_of_ne (by simp), pastBlock_cons_of_ne (by simp)]
      rw [Scan.bareAfter_blockComment, further, asterisk, pastBlock_opening, behindBlock]
  | blockOpening => exact absurd rfl (reached_ne_blockOpening reached (by decide) (by simp))
  | blockClosing => exact absurd rfl inside

/-! ## Where the mark stands -/

/-- Patching a code keeps the kinds and the texts of its tokens, in their order. -/
def KeepsTokens (code : List Char) : Prop :=
  (tokenize (patch code)).map (fun token => (token.kind, token.text)) =
    (tokenize code).map fun token => (token.kind, token.text)

theorem keepsTokens_iff {code : List Char} :
    KeepsTokens code ↔ Scan.bareAfter none (patch code) = (tokenize code).map bare := by
  have pair : ∀ tokens : List Token, tokens.map (fun token => (token.kind, token.text)) =
      (tokens.map bare).map fun token => (token.kind, token.text) := by
    intro tokens
    rw [List.map_map]
    rfl
  have gapless : ∀ tokens : List Token, tokens.map bare =
      (tokens.map fun token => (token.kind, token.text)).map fun parts =>
        ⟨parts.1, [], parts.2⟩ := by
    intro tokens
    rw [List.map_map]
    rfl
  constructor
  · intro keeps
    rw [gapless, ← keeps, ← gapless]
    rfl
  · intro same
    rw [KeepsTokens, pair, pair (tokenize code), ← same]
    rfl

/-- A mark that stands behind the tokens `left` and the characters `gap` of the gap behind
them, where it belongs to what `mode` says. -/
structure InGap (code before : List Char) (left right : List Token) (gap : List Char)
    (mode : Mode) : Prop where
  tokens : tokenize code = left ++ right
  before_eq : before = sourceOf left ++ gap
  reached : reaches .between gap '/' = some mode

/-- A mark that stands in the token behind the tokens `left`, after its characters `text`. -/
structure InToken (code before : List Char) (left right : List Token) (token : Token)
    (text text' : List Char) : Prop where
  tokens : tokenize code = left ++ token :: right
  before_eq : before = sourceOf left ++ (token.gap ++ text)
  text_eq : token.text = text ++ '/' :: text'

variable {code before after : List Char}

theorem exists_place (found : Text.splitFirst? mark code = some (before, after)) :
    (∃ left right gap mode, InGap code before left right gap mode) ∨
      ∃ left right token text text', InToken code before left right token text text' := by
  have cut : code = before ++ '/' :: '/' :: (opening ++ after) := by
    simpa [mark] using Text.eq_append_of_splitFirst? found
  have source := (Scan.source_ofSource code).trans cut
  have place := (scanned_tokenize code).place (split_trailing_after none code) source
  cases place with
  | gap left right gap mode split before_eq reached =>
      exact .inl ⟨_, _, _, _, split, before_eq, reached⟩
  | token left right token text text' split before_eq text_eq =>
      exact .inr ⟨_, _, _, _, _, split, before_eq, text_eq⟩

theorem alike_block (text cs line rest : List Char) :
    Alike (text ++ (mark ++ cs)) (text ++ block line rest) :=
  (Alike.slash _ _).append text

theorem rest_eq {left right : List Token} {text : List Char}
    (found : Text.splitFirst? mark code = some (before, after))
    (split : tokenize code = left ++ right) (before_eq : before = sourceOf left ++ text) :
    sourceOf right ++ (Scan.ofSource code).trailing = text ++ (mark ++ after) := by
  have whole := (sourceOf_append_of_tokenize split).trans (Text.eq_append_of_splitFirst? found)
  rw [before_eq, List.append_assoc, List.append_assoc] at whole
  exact List.append_cancel_left whole

/-- Tokens before the mark that are read again are read up to there. -/
theorem bareAfter_patch {left right : List Token} {text : List Char}
    (found : Text.splitFirst? mark code = some (before, after))
    (split : tokenize code = left ++ right) (before_eq : before = sourceOf left ++ text)
    (again : left.map bare <+: Scan.bareAfter none (patch code)) :
    Scan.bareAfter none (patch code) = left.map bare ++ Scan.bareAfter left.getLast?
      (text ++ block (after.takeWhile (· != '\n')) (after.dropWhile (· != '\n'))) := by
  have scanned := scanned_tokenize code
  rw [split, Scanned.append_iff] at scanned
  rw [patch_of_splitFirst? found, before_eq, List.append_assoc] at again ⊢
  have alike := alike_block text after (after.takeWhile (· != '\n')) (after.dropWhile (· != '\n'))
  rw [← rest_eq found split before_eq] at alike
  have read := scanned.1.bareAfter_reread alike none again
  rwa [Option.or_none] at read

/-! ## Marks that are no comment -/

/-- Before a slash another token is read than before an asterisk. -/
theorem bareAfter_slash_ne (previous previous' : Option Token) (cs cs' : List Char) :
    Scan.bareAfter previous ('/' :: (opening ++ cs)) ≠
      Scan.bareAfter previous' ('*' :: '*' :: cs') := by
  have slash : Mode.next? .between '/' (opening ++ cs).head? = none := rfl
  have asterisk : Mode.next? .between '*' ('*' :: cs').head? = none := rfl
  obtain ⟨token, more, rest, read, text, -⟩ := Scan.exists_bareAfter_cons slash previous
  obtain ⟨token', more', rest', read', text', -⟩ := Scan.exists_bareAfter_cons asterisk previous'
  intro same
  rw [read, read'] at same
  rw [(List.cons.inj same).1, text'] at text
  exact absurd (List.cons.inj text).1 (by decide)

/-- If the tokens are kept, the rest of the code is read the same before and after. -/
theorem bareAfter_rest_of_keepsTokens {left right : List Token} {text : List Char}
    (found : Text.splitFirst? mark code = some (before, after))
    (split : tokenize code = left ++ right) (before_eq : before = sourceOf left ++ text)
    (keeps : KeepsTokens code) :
    Scan.bareAfter left.getLast? (text ++ (mark ++ after)) = right.map bare ∧
      Scan.bareAfter left.getLast?
        (text ++ block (after.takeWhile (· != '\n')) (after.dropWhile (· != '\n'))) =
          right.map bare := by
  rw [keepsTokens_iff, split, List.map_append] at keeps
  have read := bareAfter_patch found split before_eq (keeps ▸ List.prefix_append _ _)
  rw [keeps] at read
  rw [← rest_eq found split before_eq]
  exact ⟨bareAfter_of_tokenize split, (List.append_cancel_left read).symm⟩

/-- The tokens change if the mark begins with the slash that closes a block comment. -/
theorem not_keepsTokens_of_blockClosing {left right : List Token} {gap : List Char}
    (found : Text.splitFirst? mark code = some (before, after))
    (inGap : InGap code before left right gap .blockClosing) : ¬KeepsTokens code := by
  intro keeps
  obtain ⟨split, before_eq, reached⟩ := inGap
  obtain ⟨old, new⟩ := bareAfter_rest_of_keepsTokens found split before_eq keeps
  have slash : Scan.bareAfter left.getLast? (gap ++ (mark ++ after)) =
      Scan.bareAfter left.getLast? ('/' :: (opening ++ after)) :=
    Scan.bareAfter_of_reaches reached _ ('/' :: (opening ++ after))
  have asterisk : ∀ cs, Scan.bareAfter left.getLast? (gap ++ '/' :: '*' :: '*' :: cs) =
      Scan.bareAfter left.getLast? ('*' :: '*' :: cs) := fun cs =>
    Scan.bareAfter_of_reaches reached _ ('*' :: '*' :: cs)
  rw [slash] at old
  rw [block, asterisk] at new
  exact bareAfter_slash_ne _ _ _ _ (old.trans new.symm)

/-- The mark does not open the token in which it stands: two slashes open a comment. -/
theorem InToken.exists_cons {left right : List Token} {token : Token} {text text' : List Char}
    (inToken : InToken code before left right token text text')
    (found : Text.splitFirst? mark code = some (before, after)) :
    ∃ c more, text = c :: more ∧ Whole token.gap ∧
      Mode.next? .between c (more ++ ['/']).head? = none := by
  obtain ⟨split, before_eq, text_eq⟩ := inToken
  obtain ⟨whole, c, more, opens, visible⟩ := opens_of_tokenize split
  have source := rest_eq found split before_eq
  rw [sourceOf_cons, opens] at source
  cases text with
  | nil =>
      have source : c :: (more ++ (sourceOf right ++ (Scan.ofSource code).trailing)) =
          '/' :: '/' :: (opening ++ after) := by simpa [mark] using source
      obtain ⟨rfl, ahead⟩ := List.cons.inj source
      rw [ahead] at visible
      cases visible
  | cons d text =>
      obtain ⟨rfl, rfl⟩ : c = d ∧ more = text ++ '/' :: text' := by
        simpa using opens.symm.trans text_eq
      rw [List.append_assoc, List.cons_append, head?_append_cons] at visible
      exact ⟨_, _, rfl, whole, visible⟩

/-- The tokens change if the mark stands in a token, which is a literal. -/
theorem not_keepsTokens_of_inToken {left right : List Token} {token : Token}
    {text text' : List Char} (found : Text.splitFirst? mark code = some (before, after))
    (inToken : InToken code before left right token text text') : ¬KeepsTokens code := by
  intro keeps
  obtain ⟨c, more, rfl, whole, visible⟩ := inToken.exists_cons found
  obtain ⟨split, before_eq, text_eq⟩ := inToken
  have behind := rest_eq found split before_eq
  rw [sourceOf_cons, text_eq] at behind
  have behind : text' ++ (sourceOf right ++ (Scan.ofSource code).trailing) =
      '/' :: (opening ++ after) := by simpa [mark] using behind
  have old := bareAfter_of_tokenize (split.trans (List.append_cons left token right))
  rw [List.getLast?_concat] at old
  obtain ⟨-, new⟩ := bareAfter_rest_of_keepsTokens found split before_eq keeps
  obtain ⟨cs, opens⟩ : ∃ cs, block (after.takeWhile (· != '\n'))
    (after.dropWhile (· != '\n')) = '/' :: '*' :: '*' :: cs := ⟨_, rfl⟩
  rw [← head?_append_cons more ('*' :: '*' :: cs)] at visible
  obtain ⟨first, more', rest, read, first_eq, spelled⟩ :=
    Scan.exists_bareAfter_cons visible left.getLast?
  rw [opens, List.append_assoc, Scan.bareAfter_append_of_whole whole, List.cons_append, read,
    List.map_cons] at new
  obtain ⟨rfl, others⟩ := List.cons.inj new
  obtain rfl : more ++ '/' :: text' = more' := by
    simpa [text_eq] using first_eq
  have spelled : '*' :: '*' :: cs = text' ++ rest := by simpa using spelled
  rw [Scan.bareAfter_bare] at others
  -- The token ends with the first slash, since the next characters differ.
  cases text' with
  | nil =>
      obtain rfl : '*' :: '*' :: cs = rest := spelled
      rw [List.nil_append] at behind
      rw [behind] at old
      exact bareAfter_slash_ne _ _ _ _ (old.trans others.symm)
  | cons d text' =>
      obtain rfl : '*' = d := (List.cons.inj spelled).1
      exact absurd (List.cons.inj behind).1 (by decide)

/-! ## Marks that are a comment -/

theorem pastLine_of_starts {rest : List Char} (starts : ∀ c ∈ rest.head?, c = '\n') :
    pastLine rest = rest := by
  cases rest with
  | nil => rfl
  | cons c rest =>
      obtain rfl := starts c rfl
      rfl

/-- Blanks at the end of a line comment may hold further line breaks. -/
theorem bareAfter_pastLine_blanks {blanks rest : List Char} (blank : Text.isAllBlank blanks = true)
    (starts : ∀ c ∈ rest.head?, c = '\n') (previous : Option Token) :
    Scan.bareAfter previous (pastLine (blanks ++ rest)) = Scan.bareAfter previous rest := by
  induction blanks with
  | nil => rw [List.nil_append, pastLine_of_starts starts]
  | cons c blanks ih =>
      by_cases break' : Text.isLineBreak c = true
      · have whole : Whole (c :: blanks) := whole_of_isSpacing fun d mem => by
          rw [isSpacing, List.all_eq_true.1 blank d mem, Bool.true_or]
        have stays : pastLine (c :: blanks ++ rest) = c :: blanks ++ rest :=
          List.dropWhile_cons_of_neg (by simp [break'])
        rw [stays, Scan.bareAfter_append_of_whole whole]
      · rw [Text.isAllBlank, List.all_cons, Bool.and_eq_true] at blank
        have goesOn : pastLine (c :: blanks ++ rest) = pastLine (blanks ++ rest) :=
          List.dropWhile_cons_of_pos (by simp [break'])
        rw [goesOn, ih blank.2]

/-- Behind a mark in a line comment the code goes on after its line. -/
theorem bareAfter_behindMark {mode : Mode} (inLine : mode = .between ∨ mode = .lineComment)
    {line rest : List Char} (oneLine : ∀ c ∈ Text.trimEnd line, Text.isLineBreak c = false)
    (starts : ∀ c ∈ rest.head?, c = '\n') (previous : Option Token) :
    Scan.bareAfter previous (behindMark mode (line ++ rest)) =
      Scan.bareAfter previous rest := by
  have behind : behindMark mode (line ++ rest) = pastLine (line ++ rest) := by
    rcases inLine with rfl | rfl <;> rfl
  obtain ⟨blanks, blank, cut⟩ := Text.exists_gap_trimEnd line
  rw [behind, cut, List.append_assoc, pastLine_append oneLine,
    bareAfter_pastLine_blanks blank starts]

/-- Behind what is put in its place the code goes on there too, unless the text of the
comment closes it. -/
theorem behindBlock_eq {mode : Mode} (inLine : mode = .between ∨ mode = .lineComment)
    {comment rest : List Char} (oneLine : ∀ c ∈ comment, Text.isLineBreak c = false)
    (open' : mode = .between → ¬"*/".toList <:+: comment)
    (starts : ∀ c ∈ rest.head?, c = '\n') :
    behindBlock mode (comment ++ (' ' :: '*' :: '/' :: rest)) = rest := by
  rcases inLine with rfl | rfl
  · exact pastBlock_append (open' rfl) (by decide)
  · have further : pastLine (' ' :: '*' :: '/' :: rest) = pastLine rest := rfl
    rw [behindBlock, pastLine_append oneLine, further, pastLine_of_starts starts]

/-- Tokens in which every slash divides are read again before the mark. -/
theorem prefix_of_divides {left right : List Token} {gap : List Char}
    (found : Text.splitFirst? mark code = some (before, after))
    (split : tokenize code = left ++ right) (before_eq : before = sourceOf left ++ gap)
    (divides : Divides none left) : left.map bare <+: Scan.bareAfter none (patch code) := by
  have scanned := scanned_tokenize code
  rw [split, Scanned.append_iff, rest_eq found split before_eq] at scanned
  have alike := alike_block gap after (after.takeWhile (· != '\n')) (after.dropWhile (· != '\n'))
  rw [patch_of_splitFirst? found, before_eq, List.append_assoc,
    bareAfter_run scanned.1 divides (.inr alike) (by simp [mark]) fun _ _ _ => rfl]
  exact List.prefix_append _ _

/-- Patching keeps the tokens if and only if the mark stands in a gap, and not at the end of a
block comment, the tokens before it are read again, and so is the code behind its comment. -/
theorem keepsTokens_iff_inGap (found : Text.splitFirst? mark code = some (before, after)) :
    KeepsTokens code ↔ ∃ left right gap mode, InGap code before left right gap mode ∧
      mode ≠ .blockClosing ∧ left.map bare <+: (tokenize (patch code)).map bare ∧
      Scan.bareAfter left.getLast? (behindMark mode after) =
        Scan.bareAfter left.getLast? (behindBlock mode
          (Text.trimEnd (after.takeWhile (· != '\n')) ++
            (' ' :: '*' :: '/' :: after.dropWhile (· != '\n')))) := by
  constructor
  · intro keeps
    obtain ⟨left, right, gap, mode, inGap⟩ | ⟨left, right, token, text, text', inToken⟩ :=
      exists_place found
    · have inside : mode ≠ .blockClosing := by
        rintro rfl
        exact not_keepsTokens_of_blockClosing found inGap keeps
      obtain ⟨old, new⟩ := bareAfter_rest_of_keepsTokens found inGap.tokens inGap.before_eq keeps
      rw [bareAfter_mark ⟨inGap.reached, inside⟩] at old
      rw [bareAfter_block ⟨inGap.reached, inside⟩] at new
      have again := keepsTokens_iff.1 keeps
      rw [inGap.tokens, List.map_append] at again
      exact ⟨left, right, gap, mode, inGap, inside, ⟨_, again.symm⟩, old.trans new.symm⟩
    · exact absurd keeps (not_keepsTokens_of_inToken found inToken)
  · rintro ⟨left, right, gap, mode, inGap, inside, again, behind⟩
    have old := bareAfter_of_tokenize inGap.tokens
    rw [rest_eq found inGap.tokens inGap.before_eq,
      bareAfter_mark ⟨inGap.reached, inside⟩] at old
    rw [keepsTokens_iff, bareAfter_patch found inGap.tokens inGap.before_eq again,
      bareAfter_block ⟨inGap.reached, inside⟩, ← behind, old, inGap.tokens, List.map_append]

/-- A mark in a line comment, behind slashes that divide, keeps the tokens if what is kept of
its line neither ends the line comment nor closes the block comment. -/
theorem keepsTokens_of_inLine (found : Text.splitFirst? mark code = some (before, after))
    {left right : List Token} {gap : List Char} {mode : Mode}
    (inGap : InGap code before left right gap mode) (divides : Divides none left)
    (inLine : mode = .between ∨ mode = .lineComment)
    (oneLine : ∀ c ∈ Text.trimEnd (after.takeWhile (· != '\n')), Text.isLineBreak c = false)
    (open' : mode = .between → ¬"*/".toList <:+: Text.trimEnd (after.takeWhile (· != '\n'))) :
    KeepsTokens code := by
  have starts : ∀ c ∈ (after.dropWhile (· != '\n')).head?, c = '\n' := by
    intro c mem
    have head := List.head?_dropWhile_not (· != '\n') after
    rw [Option.mem_def.1 mem] at head
    simpa using head
  refine (keepsTokens_iff_inGap found).2 ⟨left, right, gap, mode, inGap, ?_,
    prefix_of_divides found inGap.tokens inGap.before_eq divides, ?_⟩
  · rcases inLine with rfl | rfl <;> simp
  · have old := bareAfter_behindMark inLine oneLine starts left.getLast?
    rw [List.takeWhile_append_dropWhile] at old
    rw [old, behindBlock_eq inLine oneLine open' starts]

/-- A code without the mark is not patched.  Patching one that has it keeps the tokens if and
only if the mark stands in a gap, and does not begin with the slash that closes a block
comment, the tokens before it are read again, and the code behind its comment, which is a
line comment or the block comment in which it stands, is read like the code behind the block
comment that it becomes.  All this is so if the slashes before the mark divide, the mark
opens a line comment or stands in one, and what is kept of its line holds no other line break
and, if it opens the comment, no closing mark.  A mark in a literal changes the tokens. -/
theorem keepsTokens_patch (code : List Char) :
    (Text.splitFirst? mark code = none → patch code = code) ∧
      ∀ before after, Text.splitFirst? mark code = some (before, after) →
        let comment := Text.trimEnd (after.takeWhile (· != '\n'))
        let rest := after.dropWhile (· != '\n')
        (KeepsTokens code ↔ ∃ left right gap mode, InGap code before left right gap mode ∧
          mode ≠ .blockClosing ∧ left.map bare <+: (tokenize (patch code)).map bare ∧
          Scan.bareAfter left.getLast? (behindMark mode after) =
            Scan.bareAfter left.getLast?
              (behindBlock mode (comment ++ (' ' :: '*' :: '/' :: rest)))) ∧
        (∀ left right gap mode, InGap code before left right gap mode → Divides none left →
          mode = .between ∨ mode = .lineComment →
          (∀ c ∈ comment, Text.isLineBreak c = false) →
          (mode = .between → ¬"*/".toList <:+: comment) → KeepsTokens code) ∧
        ∀ left right token text text', InToken code before left right token text text' →
          ¬KeepsTokens code := by
  refine ⟨fun none => patch_of_not_contained none, fun before after found => ?_⟩
  refine ⟨keepsTokens_iff_inGap found, ?_, ?_⟩
  · intro left right gap mode inGap divides inLine oneLine open'
    exact keepsTokens_of_inLine found inGap divides inLine oneLine open'
  · intro left right token text text' inToken
    exact not_keepsTokens_of_inToken found inToken

/-- The comment at the end of a statement, with a division before it. -/
theorem keepsTokens_patch_trailing :
    let code := "a / b //# sourceMappingURL=m.map\n".toList
    patch code = "a / b /**# sourceMappingURL=m.map */\n".toList ∧ KeepsTokens code := by
  intro code
  have scan : Scan.ofSource code = ⟨[⟨.identifier, [], ['a']⟩, ⟨.punctuator, [' '], ['/']⟩,
      ⟨.identifier, [' '], ['b']⟩], " //# sourceMappingURL=m.map\n".toList⟩ :=
    @Scan.ofSource_of_within 4 _ _ (by decide)
  have inGap : InGap code "a / b ".toList (tokenize code) [] [' '] .between := by
    refine ⟨(List.append_nil _).symm, ?_, rfl⟩
    rw [tokenize, scan]
    rfl
  have divides : Divides none (tokenize code) := by
    rw [tokenize, scan]
    simp only [Divides]
    decide
  have oneLine : ∀ c ∈ "m.map".toList, Text.isLineBreak c = false := forall_mem_of_all (by decide)
  have unclosed : ¬"*/".toList <:+: "m.map".toList := by decide
  refine ⟨rfl, ?_⟩
  exact ((keepsTokens_patch code).2 "a / b ".toList "m.map\n".toList rfl).2.1 _ _ _ _ inGap
    divides (.inl rfl) oneLine fun _ => unclosed

/-- A string that holds the mark is altered, and is no longer closed. -/
theorem not_keepsTokens_string :
    let code := "'//# sourceMappingURL=x'".toList
    patch code = "'/**# sourceMappingURL=x' */".toList ∧ ¬KeepsTokens code := by
  intro code
  have scan : Scan.ofSource code = ⟨[⟨.string, [], code⟩], []⟩ :=
    @Scan.ofSource_of_within 2 _ _ (by decide)
  refine ⟨rfl, ?_⟩
  have inToken : InToken code ['\''] [] [] ⟨.string, [], code⟩ ['\'']
      "/# sourceMappingURL=x'".toList := by
    refine ⟨?_, rfl, rfl⟩
    rw [tokenize, scan]
    rfl
  have found : Text.splitFirst? mark code = some (['\''], "x'".toList) := rfl
  exact not_keepsTokens_of_inToken found inToken

end ScriptConsole.SourceMap

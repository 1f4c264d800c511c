import ScriptConsole.Token.Lexeme

/-!
# Reading a token in other surroundings

What follows a token is read only as far as it takes to see where the token
ends.  A token is read the same before two sources that are alike up to a
character at which every token ends.
-/

namespace ScriptConsole

/-- The code points of blanks and of the byte order mark. -/
def spacingCodes : List Nat :=
  List.range' 0x9 5 ++ [0x20, 0x85, 0xa0, 0x1680] ++ List.range' 0x2000 11 ++
    [0x2028, 0x2029, 0x202f, 0x205f, 0x3000, 0xfeff]

/-- What holds of each character of a list is found by running through the list. -/
theorem forall_mem_of_all {p : Char → Prop} [DecidablePred p] {cs : List Char}
    (h : cs.all (fun c => decide (p c)) = true) : ∀ c ∈ cs, p c :=
  fun c mem => of_decide_eq_true (List.all_eq_true.1 h c mem)

/-- Characters at which every token ends. -/
def barriers : List Char :=
  [')', ']', '\x7d', ';', ','] ++ spacingCodes.map Char.ofNat

theorem mem_barriers_of_isSpacing {c : Char} (h : Trivia.isSpacing c = true) :
    c ∈ barriers := by
  have code : c.toNat ∈ spacingCodes := by
    simp only [Trivia.isSpacing, Text.isBlank, Bool.or_eq_true, Bool.and_eq_true,
      decide_eq_true_eq, beq_iff_eq] at h
    simp only [spacingCodes, List.mem_append, List.mem_range'_1, List.mem_cons,
      List.not_mem_nil, or_false]
    rcases h with h | rfl
    · omega
    · decide
  exact List.mem_append_right _ (List.mem_map.2 ⟨c.toNat, code, Char.ofNat_toNat c⟩)

theorem isIdentContinue_of_mem_barriers {c : Char} (h : c ∈ barriers) :
    Text.isIdentContinue c = false := by
  have all : ∀ c ∈ barriers, Text.isIdentContinue c = false :=
    forall_mem_of_all (by decide +kernel)
  exact all c h

theorem not_mem_tail_of_mem_barriers {c : Char} (h : c ∈ barriers) :
    ∀ mark ∈ Lexeme.punctuators, c ∉ mark.toList.tail := by
  have all : ∀ c ∈ barriers, ∀ mark ∈ Lexeme.punctuators, c ∉ mark.toList.tail :=
    forall_mem_of_all (by decide)
  exact all c h

/-- Two sources that are alike up to where a token before them ends: up to the end of
the second or a character in it at which every token ends, or up to a slash in both. -/
inductive Alike : List Char → List Char → Prop where
  | stop (left : List Char) : Alike left []
  | barrier {c : Char} (h : c ∈ barriers) (left right : List Char) : Alike left (c :: right)
  | slash (left right : List Char) : Alike ('/' :: left) ('/' :: right)
  | cons (c : Char) {left right : List Char} (tail : Alike left right) :
      Alike (c :: left) (c :: right)

namespace Alike

theorem append {left right : List Char} (alike : Alike left right) (common : List Char) :
    Alike (common ++ left) (common ++ right) := by
  induction common with
  | nil => exact alike
  | cons c common ih => exact ih.cons c

/-- A token that the first character of what follows ends is ended in both. -/
theorem head?_eq_false {left right : List Char} (alike : Alike left right) {p : Char → Bool}
    (barrier : ∀ c ∈ barriers, p c = false) (slash : p '/' = false)
    (h : ∀ c ∈ left.head?, p c = false) : ∀ c ∈ right.head?, p c = false := by
  cases alike with
  | stop left => simp
  | barrier hc left right =>
      intro c hmem
      cases hmem
      exact barrier _ hc
  | slash left right =>
      intro c hmem
      cases hmem
      exact slash
  | cons c tail => exact h

/-- Characters of the second source up to its end are those of the first. -/
theorem prefix_left {left right more : List Char} (alike : Alike left right)
    (h : more <+: right) (inside : ∀ c ∈ more, c ∉ barriers ∧ c ≠ '/') : more <+: left := by
  induction alike generalizing more with
  | stop left =>
      rw [List.prefix_nil.1 h]
      exact List.nil_prefix
  | barrier hc left right =>
      cases more with
      | nil => exact List.nil_prefix
      | cons c more =>
          rw [List.cons_prefix_cons] at h
          exact absurd hc (h.1 ▸ (inside c List.mem_cons_self).1)
  | slash left right =>
      cases more with
      | nil => exact List.nil_prefix
      | cons c more =>
          rw [List.cons_prefix_cons] at h
          exact absurd h.1 (inside c List.mem_cons_self).2
  | cons c tail ih =>
      cases more with
      | nil => exact List.nil_prefix
      | cons d more =>
          rw [List.cons_prefix_cons] at h ⊢
          rw [List.forall_mem_cons] at inside
          exact ⟨h.1, ih h.2 inside.2⟩

end Alike

/-- A run of characters that ends before the rest of one source ends before the
rest of another. -/
theorem takeWhile_append_of_head? {p : Char → Bool} {more rest : List Char}
    (all : ∀ c ∈ more, p c = true) (stop : ∀ c ∈ rest.head?, p c = false) :
    (more ++ rest).takeWhile p = more ∧ (more ++ rest).dropWhile p = rest := by
  rw [List.takeWhile_append_of_pos all, List.dropWhile_append_of_pos all]
  cases rest with
  | nil => simp
  | cons c rest => simp [stop c rfl]

theorem of_takeWhile_append {p : Char → Bool} {more rest : List Char}
    (h : (more ++ rest).takeWhile p = more) :
    (∀ c ∈ more, p c = true) ∧ ∀ c ∈ rest.head?, p c = false := by
  have all : ∀ c ∈ more, p c = true := by
    rw [← h]
    exact fun c hc => List.all_eq_true.1 (List.all_takeWhile) c hc
  refine ⟨all, ?_⟩
  rw [List.takeWhile_append_of_pos all, List.append_right_eq_self] at h
  intro c hc
  obtain ⟨rest, rfl⟩ := List.head?_eq_some_iff.1 hc
  cases hp : p c with
  | false => rfl
  | true =>
      rw [List.takeWhile_cons_of_pos hp] at h
      cases h

namespace Nested

theorem reading_eq_mk {reading : Reading} {text rest : List Char} {closed : Bool}
    (htext : reading.text = text) (hrest : reading.rest = rest)
    (hclosed : reading.closed = closed) : reading = ⟨text, rest, closed⟩ := by
  subst htext hrest hclosed
  rfl

theorem exists_read_append_of_not_closed {stack : List Mode} {text : List Char}
    (h : (read stack text).closed = false) :
    ∃ mode inner, ∀ rest, read stack (text ++ rest) =
      { read (mode :: inner) rest with text := text ++ (read (mode :: inner) rest).text } := by
  induction text generalizing stack with
  | nil =>
      cases stack with
      | nil => cases h
      | cons mode stack => exact ⟨mode, stack, fun _ => rfl⟩
  | cons c text ih =>
      cases stack with
      | nil => cases h
      | cons mode stack =>
          obtain ⟨mode', inner, further⟩ := ih h
          refine ⟨mode', inner, fun rest => ?_⟩
          rw [List.cons_append, read_cons_cons, further]
          rfl

/-- A literal that is closed is read the same whatever follows it. -/
theorem read_append_of_closed {stack : List Mode} {text rest : List Char}
    (h : read stack (text ++ rest) = ⟨text, rest, true⟩) (rest' : List Char) :
    read stack (text ++ rest') = ⟨text, rest', true⟩ := by
  induction text generalizing stack with
  | nil =>
      cases stack with
      | nil => exact read_nil rest'
      | cons mode stack => cases rest <;> simp at h
  | cons c text ih =>
      cases stack with
      | nil => simp at h
      | cons mode stack =>
          simp only [List.cons_append, read_cons_cons, Reading.mk.injEq, List.cons.injEq,
            true_and] at h ⊢
          obtain ⟨htext, hrest, hclosed⟩ := h
          simp [ih (reading_eq_mk htext hrest hclosed)]

end Nested

namespace Lexeme

/-- Whether a character goes on a number; a sign does so after an exponent mark. -/
def continuesNumber (exponent : Bool) (c : Char) : Bool :=
  Text.isAsciiAlphanumeric c || c == '.' || c == '_' || ((c == '+' || c == '-') && exponent)

theorem numberMore_cons (hex : Bool) (last c : Char) (cs : List Char) :
    numberMore hex last (c :: cs) =
      if continuesNumber ((last == 'e' || last == 'E') && !hex) c then
        (c :: (numberMore hex c cs).1, (numberMore hex c cs).2)
      else ([], c :: cs) := by
  simp only [numberMore, continuesNumber, Bool.and_assoc]
  rfl

theorem numberMore_append_of_alike {hex : Bool} {last : Char} {more rest rest' : List Char}
    (h : numberMore hex last (more ++ rest) = (more, rest)) (alike : Alike rest rest') :
    numberMore hex last (more ++ rest') = (more, rest') := by
  induction more generalizing last with
  | nil =>
      have stop : ∀ c ∈ rest.head?,
          continuesNumber ((last == 'e' || last == 'E') && !hex) c = false := by
        intro c hc
        obtain ⟨rest, rfl⟩ := List.head?_eq_some_iff.1 hc
        cases hnumber : continuesNumber ((last == 'e' || last == 'E') && !hex) c with
        | false => rfl
        | true =>
            rw [List.nil_append, numberMore_cons, if_pos hnumber] at h
            cases h
      have stop' := alike.head?_eq_false (fun c hc => ?_) ?_ stop
      · cases rest' with
        | nil => rfl
        | cons c rest' =>
            rw [List.nil_append, numberMore_cons, stop' c rfl]
            rfl
      · have barrier : ∀ c ∈ barriers, ∀ exponent : Bool,
            continuesNumber exponent c = false := forall_mem_of_all (by decide)
        exact barrier c hc _
      · have slash : ∀ exponent : Bool, continuesNumber exponent '/' = false := by decide
        exact slash _
  | cons c more ih =>
      rw [List.cons_append, numberMore_cons] at h ⊢
      split at h
      · rename_i hnumber
        simp only [Prod.mk.injEq, List.cons.injEq, true_and] at h
        rw [if_pos hnumber, ih (Prod.ext h.1 h.2)]
      · cases h

theorem regexBody_cons_cases (inClass escaped : Bool) (c : Char) :
    (∀ cs, regexBody inClass escaped (c :: cs) = none) ∨
      (∀ cs, regexBody inClass escaped (c :: cs) = some ([c], cs)) ∨
      ∃ inClass' escaped', ∀ cs, regexBody inClass escaped (c :: cs) =
        (regexBody inClass' escaped' cs).map fun parts => (c :: parts.1, parts.2) := by
  simp only [regexBody]
  split
  · exact .inr (.inr ⟨_, _, fun _ => rfl⟩)
  · split
    · exact .inl fun _ => rfl
    · split
      · exact .inr (.inr ⟨_, _, fun _ => rfl⟩)
      · split
        · exact .inr (.inr ⟨_, _, fun _ => rfl⟩)
        · split
          · exact .inr (.inr ⟨_, _, fun _ => rfl⟩)
          · split
            · exact .inr (.inl fun _ => rfl)
            · exact .inr (.inr ⟨_, _, fun _ => rfl⟩)

theorem regexBody_append_of_some {inClass escaped : Bool} {body rest : List Char}
    (h : regexBody inClass escaped (body ++ rest) = some (body, rest)) (rest' : List Char) :
    regexBody inClass escaped (body ++ rest') = some (body, rest') := by
  induction body generalizing inClass escaped with
  | nil =>
      cases rest with
      | nil => cases h
      | cons c rest =>
          rw [List.nil_append] at h
          rcases regexBody_cons_cases inClass escaped c with step | step | ⟨_, _, step⟩ <;>
            simp [step] at h
  | cons c body ih =>
      rw [List.cons_append] at h ⊢
      rcases regexBody_cons_cases inClass escaped c with step | step | ⟨_, _, step⟩
      · rw [step] at h
        cases h
      · rw [step] at h ⊢
        simp only [Option.some.injEq, Prod.mk.injEq, List.cons.injEq, true_and] at h
        rw [← h.1]
        rfl
      · rw [step] at h ⊢
        obtain ⟨⟨first, second⟩, hbody, hparts⟩ := Option.map_eq_some_iff.1 h
        simp only [Prod.mk.injEq, List.cons.injEq, true_and] at hparts
        obtain ⟨rfl, rfl⟩ := hparts
        rw [ih hbody]
        rfl

theorem regexMore?_append_of_alike {more rest rest' : List Char}
    (h : regexMore? (more ++ rest) = some (more, rest)) (alike : Alike rest rest') :
    regexMore? (more ++ rest') = some (more, rest') := by
  obtain ⟨⟨body, after⟩, hbody, hparts⟩ := Option.map_eq_some_iff.1 h
  simp only [Prod.mk.injEq] at hparts
  obtain ⟨hmore, hrest⟩ := hparts
  have hafter : after = after.takeWhile Text.isIdentContinue ++ rest := by
    rw [← hrest]
    exact List.takeWhile_append_dropWhile.symm
  obtain ⟨flags, stop⟩ := of_takeWhile_append (p := Text.isIdentContinue)
    (congrArg (List.takeWhile Text.isIdentContinue) hafter).symm
  have stop' := alike.head?_eq_false (fun _ => isIdentContinue_of_mem_barriers) (by decide) stop
  obtain ⟨htake, hdrop⟩ := takeWhile_append_of_head? flags stop'
  rw [← hmore, List.append_assoc] at hbody ⊢
  rw [← hafter] at hbody
  rw [regexMore?, regexBody_append_of_some hbody]
  simp only [Option.map_some, htake, hdrop]

theorem pairwise_punctuators :
    punctuators.Pairwise fun first second =>
      second.toList.length ≤ first.toList.length := by decide

theorem length_le_punctuatorReach {c : Char} {cs : List Char} {mark : String}
    (mem : mark ∈ punctuators) (h : mark.toList <+: c :: cs) :
    mark.toList.length ≤ punctuatorReach c cs + 1 := by
  have matched : mark.toList.isPrefixOf (c :: cs) = true := List.isPrefixOf_iff_prefix.2 h
  unfold punctuatorReach
  split
  · rename_i found hfound
    obtain ⟨-, before, after, hmarks, hbefore⟩ := List.find?_eq_some_iff_append.1 hfound
    have longest := pairwise_punctuators
    rw [hmarks, List.pairwise_append, List.pairwise_cons] at longest
    rw [hmarks, List.mem_append, List.mem_cons] at mem
    rcases mem with hmem | rfl | hmem
    · have := hbefore mark hmem
      rw [matched] at this
      cases this
    · omega
    · have := longest.2.1.1 mark hmem
      omega
  · rename_i hnone
    exact absurd matched (List.find?_eq_none.1 hnone mark mem)

theorem exists_punctuator_of_reach {c : Char} {cs : List Char}
    (h : punctuatorReach c cs ≠ 0) :
    ∃ mark ∈ punctuators, mark.toList <+: c :: cs ∧ mark.toList.head? = some c ∧
      mark.toList.length = punctuatorReach c cs + 1 := by
  unfold punctuatorReach at h ⊢
  split at h
  · rename_i mark hmark
    have hprefix := List.isPrefixOf_iff_prefix.1 (List.find?_some hmark :)
    refine ⟨mark, List.mem_of_find?_eq_some hmark, hprefix, ?_, by omega⟩
    cases htext : mark.toList with
    | nil =>
        rw [htext] at h
        cases h rfl
    | cons d more =>
        rw [htext, List.cons_prefix_cons] at hprefix
        rw [List.head?_cons, hprefix.1]
  · exact absurd rfl h

theorem punctuatorReach_le {c : Char} {cs cs' : List Char}
    (h : ∀ mark ∈ punctuators, mark.toList <+: c :: cs → mark.toList <+: c :: cs') :
    punctuatorReach c cs ≤ punctuatorReach c cs' := by
  by_cases zero : punctuatorReach c cs = 0
  · omega
  · obtain ⟨mark, mem, hprefix, -, hlength⟩ := exists_punctuator_of_reach zero
    have := length_le_punctuatorReach mem (h mark mem hprefix)
    omega

/-- Punctuators that open the second of two alike sources open the first. -/
theorem prefix_append_of_alike {mark : String} (mem : mark ∈ punctuators) {c : Char}
    {more rest rest' : List Char} (alike : Alike rest rest')
    (h : mark.toList <+: c :: (more ++ rest')) : mark.toList <+: c :: (more ++ rest) := by
  have shared : c :: more <+: c :: (more ++ rest') := List.prefix_append (c :: more) rest'
  rcases List.prefix_or_prefix_of_prefix h shared with inside | ⟨further, hmark⟩
  · exact inside.trans (List.prefix_append (c :: more) rest)
  · have tail : mark.toList.tail = more ++ further := by
      rw [← hmark]
      rfl
    have inside : ∀ d ∈ further, d ∉ barriers ∧ d ≠ '/' := by
      intro d hd
      have inTail : d ∈ mark.toList.tail := tail ▸ List.mem_append_right more hd
      refine ⟨fun barrier => not_mem_tail_of_mem_barriers barrier mark mem inTail, ?_⟩
      rintro rfl
      have slash : ∀ mark ∈ punctuators, '/' ∉ mark.toList.tail := by decide
      exact slash mark mem inTail
    rw [← hmark] at h ⊢
    have hfurther : further <+: rest' := (List.prefix_append_right_inj (c :: more)).1 h
    exact (List.prefix_append_right_inj (c :: more)).2 (alike.prefix_left hfurther inside)

theorem punctuator_append_of_alike {c : Char} {more rest rest' : List Char}
    (h : punctuator c (more ++ rest) = ⟨.punctuator, more, rest⟩) (alike : Alike rest rest') :
    punctuator c (more ++ rest') = ⟨.punctuator, more, rest'⟩ := by
  simp only [punctuator, Lexeme.mk.injEq, true_and] at h
  have hlength : punctuatorReach c (more ++ rest) = more.length := by
    by_cases zero : punctuatorReach c (more ++ rest) = 0
    · have := h.1
      rw [zero, List.take_zero] at this
      rw [zero, ← this, List.length_nil]
    · obtain ⟨mark, -, hprefix, -, hmark⟩ := exists_punctuator_of_reach zero
      have bound := hprefix.length_le
      have := congrArg List.length h.1
      rw [List.length_take] at this
      rw [List.length_cons] at bound
      omega
  have same : punctuatorReach c (more ++ rest') = more.length := by
    rw [← hlength]
    apply Nat.le_antisymm
    · exact punctuatorReach_le fun mark mem => prefix_append_of_alike mem alike
    · apply punctuatorReach_le
      intro mark mem hprefix
      have bound := length_le_punctuatorReach mem hprefix
      have inside : mark.toList <+: c :: more := by
        apply List.prefix_of_prefix_length_le hprefix (List.prefix_append (c :: more) rest)
        rw [List.length_cons]
        omega
      exact inside.trans (List.prefix_append (c :: more) rest')
  rw [punctuator, same, List.take_left, List.drop_left]

/-- Marks that no longer punctuator opens with. -/
def loneMarks : List Char :=
  ['(', ')', '[', ']', '{', '}', ';', ',']

/-- A bracket, a semicolon or a comma is a token of its own whatever follows. -/
theorem read_of_mem_loneMarks {c : Char} (h : c ∈ loneMarks) (previous : Option Token)
    (cs : List Char) : read previous c cs = ⟨.punctuator, [], cs⟩ := by
  have identifier : opensIdentifier c cs = false := by
    have : ∀ c ∈ loneMarks, Text.isIdentStart c = false ∧ (c == '#') = false :=
      forall_mem_of_all (by decide)
    simp [opensIdentifier, this c h]
  have number : opensNumber c cs = false := by
    have : ∀ c ∈ loneMarks, Text.isAsciiDigit c = false ∧ (c == '.') = false :=
      forall_mem_of_all (by decide)
    simp [opensNumber, this c h]
  have other : ∀ c ∈ loneMarks, ¬(c = '\'' ∨ c = '"') ∧ c ≠ '\x60' ∧ c ≠ '/' :=
    forall_mem_of_all (by decide)
  have reach : punctuatorReach c cs = 0 := by
    have : ∀ c ∈ loneMarks, ∀ mark ∈ punctuators, mark.toList.head? ≠ some c :=
      forall_mem_of_all (by decide)
    apply Decidable.byContradiction
    intro long
    obtain ⟨mark, mem, -, hhead, -⟩ := exists_punctuator_of_reach long
    exact this c h mark mem hhead
  unfold read
  rw [identifier, number]
  simp only [Bool.false_eq_true, if_false, other c h, false_and, punctuator, reach,
    List.take_zero, List.drop_zero]

/-- The ways in which a token of each kind is read, `more` behind its first character `c`
and `rest` left. -/
inductive Reads (previous : Option Token) (c : Char) (cs more rest : List Char) :
    TokenKind → Prop where
  | name (opens : opensIdentifier c cs = true)
      (text : cs.takeWhile Text.isIdentContinue = more) :
      Reads previous c cs more rest .identifier
  | number (opens : opensNumber c cs = true)
      (parts : numberMore (opensHexadecimal c cs) c cs = (more, rest)) :
      Reads previous c cs more rest .number
  | quoted (mark : c = '\'' ∨ c = '"') (text : (Nested.read [.quoted c] cs).text = more)
      (left : (Nested.read [.quoted c] cs).rest = rest) :
      Reads previous c cs more rest .string
  | template (mark : c = '\x60') (text : (Nested.read [.template] cs).text = more)
      (left : (Nested.read [.template] cs).rest = rest) :
      Reads previous c cs more rest .template
  | regex (opens : c = '/') (allows : allowsRegex previous = true)
      (parts : regexMore? cs = some (more, rest)) : Reads previous c cs more rest .regex
  | slash (opens : c = '/') (allows : allowsRegex previous = true)
      (noBody : regexMore? cs = none) (alone : more = []) :
      Reads previous c cs more rest .punctuator
  | mark (noRegex : ¬(c = '/' ∧ allowsRegex previous = true))
      (read : punctuator c cs = ⟨.punctuator, more, rest⟩) :
      Reads previous c cs more rest .punctuator

theorem Reads.of_read {previous : Option Token} {c : Char} {cs more rest : List Char}
    {kind : TokenKind} (h : read previous c cs = ⟨kind, more, rest⟩) :
    Reads previous c cs more rest kind := by
  unfold read at h
  split at h
  · rename_i opens
    cases h
    exact .name opens rfl
  · split at h
    · rename_i opens
      cases h
      exact .number opens rfl
    · split at h
      · rename_i mark
        cases h
        exact .quoted mark rfl rfl
      · split at h
        · rename_i mark
          cases h
          exact .template mark rfl rfl
        · split at h
          · rename_i slash
            split at h
            · rename_i parts
              cases h
              exact .regex slash.1 slash.2 parts
            · rename_i noBody
              cases h
              exact .slash slash.1 slash.2 noBody rfl
          · rename_i noRegex
            obtain rfl : kind = .punctuator := (congrArg Lexeme.kind h).symm
            exact .mark noRegex h

/-- Whether a literal lacks the mark that closes it. -/
def isOpenLiteral : TokenKind → List Char → Bool
  | .string, quote :: more => !(Nested.read [.quoted quote] more).closed
  | .template, _ :: more => !(Nested.read [.template] more).closed
  | _, _ => false

/-- The marks of quoted text and templates. -/
def literalMarks : List Char :=
  ['\'', '"', '\x60']

/-- A literal opens with its mark, and the mark decides how it is read. -/
theorem read_of_isOpenLiteral {kind : TokenKind} {previous : Option Token} {c : Char}
    {more cs rest : List Char} (h : read previous c cs = ⟨kind, more, rest⟩)
    (opened : isOpenLiteral kind (c :: more) = true) :
    c ∈ literalMarks ∧ ∃ mode : Nested.Mode, (Nested.read [mode] more).closed = false ∧
      ∀ previous' cs', read previous' c cs' =
        ⟨kind, (Nested.read [mode] cs').text, (Nested.read [mode] cs').rest⟩ := by
  cases Reads.of_read h with
  | quoted mark text left =>
      refine ⟨?_, .quoted c, by simpa [isOpenLiteral] using opened, fun previous' cs' => ?_⟩
      · rcases mark with rfl | rfl <;> decide
      · rcases mark with rfl | rfl <;> rfl
  | template mark text left =>
      subst mark
      exact ⟨by decide, .template, by simpa [isOpenLiteral] using opened, fun _ _ => rfl⟩
  | name => cases opened
  | number => cases opened
  | regex => cases opened
  | slash => cases opened
  | mark => cases opened

/-- A literal that is not closed takes all of its source, and more if there is more. -/
theorem read_append_of_isOpenLiteral {kind : TokenKind} {previous : Option Token} {c : Char}
    {more rest : List Char} (h : read previous c (more ++ rest) = ⟨kind, more, rest⟩)
    (opened : isOpenLiteral kind (c :: more) = true) :
    c ∈ literalMarks ∧ rest = [] ∧ ∀ d cs, ∃ taken left, cs = taken ++ left ∧
      ∀ previous', read previous' c (more ++ d :: cs) = ⟨kind, more ++ d :: taken, left⟩ := by
  obtain ⟨isMark, mode, notClosed, reads⟩ := read_of_isOpenLiteral h opened
  obtain ⟨mode', inner, further⟩ := Nested.exists_read_append_of_not_closed notClosed
  have longer : ∀ d cs, ∃ taken left, cs = taken ++ left ∧
      ∀ previous', read previous' c (more ++ d :: cs) = ⟨kind, more ++ d :: taken, left⟩ := by
    intro d cs
    refine ⟨_, _, (Nested.read_text_append_rest (mode'.step d ++ inner) cs).symm, ?_⟩
    intro previous'
    rw [reads, further]
    rfl
  refine ⟨isMark, ?_, longer⟩
  cases rest with
  | nil => rfl
  | cons d cs =>
      obtain ⟨taken, left, -, read⟩ := longer d cs
      rw [read, Lexeme.mk.injEq] at h
      have := congrArg List.length h.2.1
      simp at this

theorem isOpenLiteral_eq_false_of_kind {kind : TokenKind} {text : List Char}
    (h : kind = .identifier ∨ kind = .punctuator) : isOpenLiteral kind text = false := by
  rcases h with rfl | rfl <;> rfl

theorem kind_of_isOpenLiteral {kind : TokenKind} {text : List Char}
    (opened : isOpenLiteral kind text = true) : kind = .template ∨ kind = .string := by
  cases kind with
  | template => exact .inl rfl
  | string => exact .inr rfl
  | identifier => cases opened
  | number => cases opened
  | regex => cases opened
  | punctuator => cases opened

theorem nested_read_append {stack : List Nested.Mode} {more rest : List Char}
    (htext : (Nested.read stack (more ++ rest)).text = more)
    (hrest : (Nested.read stack (more ++ rest)).rest = rest)
    (closed : rest = [] → (Nested.read stack more).closed = true) (rest' : List Char) :
    Nested.read stack (more ++ rest') = ⟨more, rest', true⟩ := by
  have hclosed : (Nested.read stack (more ++ rest)).closed = true := by
    cases h : (Nested.read stack (more ++ rest)).closed with
    | true => rfl
    | false =>
        have nothing : rest = [] := hrest.symm.trans (Nested.read_rest_of_not_closed h)
        have := closed nothing
        rw [nothing, List.append_nil, this] at h
        cases h
  exact Nested.read_append_of_closed (Nested.reading_eq_mk htext hrest hclosed) rest'

/-- Whether the character ahead has a property is the same at two alike sources, if
the first does not go on with a character that has it. -/
theorem any_head?_append_of_alike {p : Char → Bool} {more rest rest' : List Char}
    (alike : Alike rest rest') (barrier : ∀ c ∈ barriers, p c = false) (slash : p '/' = false)
    (stop : more = [] → ∀ c ∈ rest.head?, p c = false) :
    (more ++ rest').head?.any p = (more ++ rest).head?.any p := by
  cases more with
  | cons c more => rfl
  | nil =>
      have none : ∀ {cs : List Char}, (∀ c ∈ cs.head?, p c = false) →
          cs.head?.any p = false := by
        intro cs h
        rw [← Bool.not_eq_true, Option.any_eq_true]
        rintro ⟨c, hc, hp⟩
        rw [h c hc] at hp
        cases hp
      rw [List.nil_append, List.nil_append, none (stop rfl),
        none (alike.head?_eq_false barrier slash (stop rfl))]

theorem opensIdentifier_append_of_alike {previous : Option Token} {c : Char}
    {kind : TokenKind} {more rest rest' : List Char}
    (h : read previous c (more ++ rest) = ⟨kind, more, rest⟩) (alike : Alike rest rest') :
    opensIdentifier c (more ++ rest') = opensIdentifier c (more ++ rest) := by
  cases hash : c == '#' with
  | false => simp [opensIdentifier, hash]
  | true =>
      have same := @any_head?_append_of_alike Text.isIdentStart more _ _ alike
        (fun d hd => Bool.eq_false_iff.2 fun start => ?_) (by decide) ?_
      · rw [opensIdentifier, opensIdentifier, same]
      · have := isIdentContinue_of_mem_barriers hd
        rw [Text.isIdentContinue_of_isIdentStart start] at this
        cases this
      · rintro rfl d hd
        obtain ⟨rest, rfl⟩ := List.head?_eq_some_iff.1 hd
        apply Bool.eq_false_iff.2
        intro start
        have opens : opensIdentifier c (d :: rest) = true := by
          simp [opensIdentifier, hash, start]
        rw [List.nil_append, read, if_pos opens, Lexeme.mk.injEq,
          List.takeWhile_cons_of_pos (Text.isIdentContinue_of_isIdentStart start)] at h
        cases h.2.1

/-- A token of no further characters stands before none that goes on a number. -/
theorem numberMore_eq_nil {hex : Bool} {last d : Char} {rest : List Char}
    (h : (numberMore hex last (d :: rest)).1 = []) : Text.isAsciiAlphanumeric d = false := by
  rw [numberMore_cons] at h
  split at h
  · cases h
  · rename_i stop
    simp only [continuesNumber, Bool.not_eq_true, Bool.or_eq_false_iff] at stop
    exact stop.1.1.1

theorem opensNumber_append_of_alike {previous : Option Token} {c : Char}
    {kind : TokenKind} {more rest rest' : List Char}
    (h : read previous c (more ++ rest) = ⟨kind, more, rest⟩) (alike : Alike rest rest') :
    opensNumber c (more ++ rest') = opensNumber c (more ++ rest) := by
  cases point : c == '.' with
  | false => simp [opensNumber, point]
  | true =>
      have same := @any_head?_append_of_alike Text.isAsciiDigit more _ _ alike
        (forall_mem_of_all (by decide)) (by decide) ?_
      · rw [opensNumber, opensNumber, same]
      · rintro rfl d hd
        obtain ⟨rest, rfl⟩ := List.head?_eq_some_iff.1 hd
        apply Bool.eq_false_iff.2
        intro digit
        obtain rfl : c = '.' := by simpa using point
        have noName : opensIdentifier '.' (d :: rest) = false := rfl
        have opens : opensNumber '.' (d :: rest) = true := by simp [opensNumber, digit]
        rw [List.nil_append, read, noName, if_neg (by decide), if_pos opens,
          Lexeme.mk.injEq] at h
        have := numberMore_eq_nil h.2.1
        simp [Text.isAsciiAlphanumeric, digit] at this

theorem opensHexadecimal_append_of_alike {hex : Bool} {c : Char} {more rest rest' : List Char}
    (h : (numberMore hex c (more ++ rest)).1 = more) (alike : Alike rest rest') :
    opensHexadecimal c (more ++ rest') = opensHexadecimal c (more ++ rest) := by
  have asAny : ∀ cs : List Char, opensHexadecimal c cs =
      (c == '0' && cs.head?.any fun d => d == 'x' || d == 'X') := by
    intro cs
    cases cs <;> simp [opensHexadecimal]
  have same := @any_head?_append_of_alike (fun d => d == 'x' || d == 'X') more _ _ alike
    (forall_mem_of_all (by decide)) (by decide) ?_
  · rw [asAny, asAny, same]
  · rintro rfl d hd
    obtain ⟨rest, rfl⟩ := List.head?_eq_some_iff.1 hd
    apply Bool.eq_false_iff.2
    intro mark
    have stop := numberMore_eq_nil h
    simp only [Bool.or_eq_true, beq_iff_eq] at mark
    rcases mark with rfl | rfl <;> cases stop

/-- A token is read the same before two alike sources, unless it is a literal that
is not closed, or a slash whose reading depends on the token before it. -/
theorem read_append_of_alike {previous previous' : Option Token} {c : Char}
    {kind : TokenKind} {more rest rest' : List Char}
    (h : read previous c (more ++ rest) = ⟨kind, more, rest⟩) (alike : Alike rest rest')
    (closed : rest = [] → isOpenLiteral kind (c :: more) = false)
    (slash : c = '/' → allowsRegex previous' = allowsRegex previous)
    (divides : c = '/' → kind = .punctuator → allowsRegex previous = false) :
    read previous' c (more ++ rest') = ⟨kind, more, rest'⟩ := by
  have identifier := opensIdentifier_append_of_alike h alike
  have number := opensNumber_append_of_alike h alike
  unfold read at h ⊢
  rw [identifier, number]
  split at h
  · rename_i opens
    rw [if_pos opens]
    simp only [Lexeme.mk.injEq] at h
    obtain ⟨rfl, htext, -⟩ := h
    obtain ⟨all, stop⟩ := of_takeWhile_append htext
    have stop' := alike.head?_eq_false (fun _ => isIdentContinue_of_mem_barriers)
      (by decide) stop
    obtain ⟨htake, hdrop⟩ := takeWhile_append_of_head? all stop'
    rw [htake, hdrop]
  · rename_i noName
    rw [if_neg noName]
    split at h
    · rename_i opens
      rw [if_pos opens]
      simp only [Lexeme.mk.injEq] at h
      obtain ⟨rfl, htext, hrest⟩ := h
      rw [opensHexadecimal_append_of_alike htext alike,
        numberMore_append_of_alike (Prod.ext htext hrest) alike]
    · rename_i noNumber
      rw [if_neg noNumber]
      split at h
      · rename_i quote
        rw [if_pos quote]
        simp only [Lexeme.mk.injEq] at h
        obtain ⟨rfl, htext, hrest⟩ := h
        rw [nested_read_append htext hrest (by simpa [isOpenLiteral] using closed)]
      · rename_i noQuote
        rw [if_neg noQuote]
        split at h
        · rename_i mark
          rw [if_pos mark]
          simp only [Lexeme.mk.injEq] at h
          obtain ⟨rfl, htext, hrest⟩ := h
          rw [nested_read_append htext hrest (by simpa [isOpenLiteral] using closed)]
        · rename_i noMark
          rw [if_neg noMark]
          split at h
          · rename_i regex
            rw [if_pos ⟨regex.1, (slash regex.1).trans regex.2⟩]
            split at h
            · rename_i parts hparts
              simp only [Lexeme.mk.injEq] at h
              obtain ⟨rfl, htext, hrest⟩ := h
              rw [regexMore?_append_of_alike (hparts.trans (by rw [← htext, ← hrest])) alike]
            · simp only [Lexeme.mk.injEq] at h
              have := divides regex.1 h.1.symm
              rw [regex.2] at this
              cases this
          · rename_i noRegex
            have noRegex' : ¬(c = '/' ∧ allowsRegex previous' = true) := by
              rintro ⟨rfl, allows⟩
              exact noRegex ⟨rfl, (slash rfl).symm.trans allows⟩
            rw [if_neg noRegex']
            obtain rfl : kind = .punctuator := (congrArg Lexeme.kind h).symm
            exact punctuator_append_of_alike h alike

end Lexeme

end ScriptConsole

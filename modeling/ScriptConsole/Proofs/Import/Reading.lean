import ScriptConsole.Import.Rewrite
import ScriptConsole.Proofs.Token.Reading

/-!
# Readers of import declarations

Each reader takes a part off the front of a text.  Here is which part it takes:
a name up to a character that cannot go on with it, quoted text and a group up
to what closes them, whatever follows.
-/

namespace ScriptConsole

namespace Text

theorem isIdentContinue_of_isBlank {c : Char} (h : isBlank c = true) :
    isIdentContinue c = false :=
  isIdentContinue_of_mem_barriers (mem_barriers_of_isSpacing (by simp [Trivia.isSpacing, h]))

/-- A text that opens with no blank. -/
def OpensVisibly (cs : List Char) : Prop :=
  ∀ c ∈ cs.head?, isBlank c = false

theorem opensVisibly_cons {c : Char} {cs : List Char} :
    OpensVisibly (c :: cs) ↔ isBlank c = false := by
  simp [OpensVisibly]

theorem OpensVisibly.append {cs : List Char} (h : OpensVisibly cs) (ne : cs ≠ [])
    (more : List Char) : OpensVisibly (cs ++ more) := by
  cases cs with
  | nil => exact absurd rfl ne
  | cons c cs => exact opensVisibly_cons.2 (opensVisibly_cons.1 h)

theorem OpensVisibly.of_append {left right : List Char} (h : OpensVisibly (left ++ right)) :
    OpensVisibly left := by
  cases left with
  | nil => simp [OpensVisibly]
  | cons c left => exact opensVisibly_cons.2 (opensVisibly_cons.1 h)

theorem OpensVisibly.isAllBlank_eq_false {cs : List Char} (h : OpensVisibly cs)
    (ne : cs ≠ []) : isAllBlank cs = false := by
  obtain ⟨c, more, rfl⟩ := List.exists_cons_of_ne_nil ne
  rw [isAllBlank, List.all_cons, opensVisibly_cons.1 h, Bool.false_and]

theorem opensVisibly_trimStart (cs : List Char) : OpensVisibly (trimStart cs) := by
  intro c hc
  have := List.head?_dropWhile_not isBlank cs
  rw [trimStart, Option.mem_def] at hc
  rw [hc] at this
  simpa using this

theorem trimStart_of_opensVisibly {cs : List Char} (h : OpensVisibly cs) :
    trimStart cs = cs := by
  cases cs with
  | nil => rfl
  | cons c cs => rw [trimStart, List.dropWhile_cons_of_neg (by simp [opensVisibly_cons.1 h])]

theorem trimStart_append {gap : List Char} (blank : isAllBlank gap = true) (cs : List Char) :
    trimStart (gap ++ cs) = trimStart cs :=
  List.dropWhile_append_of_pos (List.all_eq_true.1 blank)

theorem trimStart_append_of_opensVisibly {gap cs : List Char} (blank : isAllBlank gap = true)
    (opens : OpensVisibly cs) : trimStart (gap ++ cs) = cs := by
  rw [trimStart_append blank, trimStart_of_opensVisibly opens]

theorem isAllBlank_append {gap gap' : List Char} (blank : isAllBlank gap = true)
    (blank' : isAllBlank gap' = true) : isAllBlank (gap ++ gap') = true := by
  rw [isAllBlank, List.all_append, Bool.and_eq_true]
  exact ⟨blank, blank'⟩

theorem not_mem_of_isAllBlank {gap : List Char} {c : Char} (blank : isAllBlank gap = true)
    (visible : isBlank c = false) : c ∉ gap := by
  intro mem
  rw [List.all_eq_true.1 blank c mem] at visible
  cases visible

theorem isAllBlank_indent (cs : List Char) : isAllBlank (indent cs) = true :=
  List.all_takeWhile

/-- A text is the blanks that open it and what remains when they are dropped. -/
theorem exists_gap_trimStart (cs : List Char) :
    ∃ gap, isAllBlank gap = true ∧ cs = gap ++ trimStart cs :=
  ⟨indent cs, isAllBlank_indent cs, (indent_append_trimStart cs).symm⟩

theorem trimStart_append_of_ne_nil {cs : List Char} (ne : trimStart cs ≠ [])
    (more : List Char) : trimStart (cs ++ more) = trimStart cs ++ more := by
  obtain ⟨gap, blank, hcs⟩ := exists_gap_trimStart cs
  have whole : cs ++ more = gap ++ (trimStart cs ++ more) := by
    rw [← List.append_assoc, ← hcs]
  rw [whole]
  exact trimStart_append_of_opensVisibly blank ((opensVisibly_trimStart cs).append ne more)

theorem isAllBlank_reverse {gap : List Char} (blank : isAllBlank gap = true) :
    isAllBlank gap.reverse = true := by
  rwa [isAllBlank, List.all_reverse]

theorem trimEnd_eq (cs : List Char) : trimEnd cs = (trimStart cs.reverse).reverse := rfl

/-- A text is what remains when the blanks that close it are dropped, and they. -/
theorem exists_gap_trimEnd (cs : List Char) :
    ∃ gap, isAllBlank gap = true ∧ cs = trimEnd cs ++ gap := by
  obtain ⟨gap, blank, h⟩ := exists_gap_trimStart cs.reverse
  refine ⟨gap.reverse, isAllBlank_reverse blank, ?_⟩
  rw [trimEnd_eq, ← List.reverse_append, ← h, List.reverse_reverse]

theorem trimEnd_append {cs : List Char} (closes : OpensVisibly cs.reverse)
    (more : List Char) : trimEnd (cs ++ more) = cs ++ trimEnd more := by
  obtain ⟨gap, blank, h⟩ := exists_gap_trimStart more.reverse
  rw [trimEnd_eq, trimEnd_eq, List.reverse_append, h, List.append_assoc,
    trimStart_append blank, trimStart_append blank,
    trimStart_of_opensVisibly (opensVisibly_trimStart _)]
  cases hmore : trimStart more.reverse with
  | nil => simp [trimStart_of_opensVisibly closes]
  | cons c rest =>
      have visible := opensVisibly_trimStart more.reverse
      rw [hmore, opensVisibly_cons] at visible
      rw [List.cons_append, trimStart_of_opensVisibly (opensVisibly_cons.2 visible)]
      simp

theorem trimEnd_trimEnd (cs : List Char) : trimEnd (trimEnd cs) = trimEnd cs := by
  rw [trimEnd_eq cs, trimEnd_eq, List.reverse_reverse,
    trimStart_of_opensVisibly (opensVisibly_trimStart _)]

theorem trimEnd_eq_self_iff {cs : List Char} : trimEnd cs = cs ↔ OpensVisibly cs.reverse := by
  constructor
  · intro h
    have visible := opensVisibly_trimStart cs.reverse
    rwa [← List.reverse_reverse (trimStart cs.reverse), ← trimEnd_eq, h] at visible
  · intro h
    rw [trimEnd_eq, trimStart_of_opensVisibly h, List.reverse_reverse]

theorem trimEnd_of_trim {cs : List Char} (trimmed : trim cs = cs) : trimEnd cs = cs := by
  rw [← trimmed, trim, trimEnd_trimEnd]

theorem trim_of_opensVisibly {cs : List Char} (opens : OpensVisibly cs)
    (closes : OpensVisibly cs.reverse) : trim cs = cs := by
  rw [trim, trimStart_of_opensVisibly opens, trimEnd_eq_self_iff.2 closes]

theorem opensVisibly_trim (cs : List Char) : OpensVisibly (trim cs) := by
  obtain ⟨gap, -, h⟩ := exists_gap_trimEnd (trimStart cs)
  have opens := opensVisibly_trimStart cs
  rw [h] at opens
  exact opens.of_append

theorem trim_trim (cs : List Char) : trim (trim cs) = trim cs := by
  have closes : trimEnd (trim cs) = trim cs := trimEnd_trimEnd (trimStart cs)
  exact trim_of_opensVisibly (opensVisibly_trim cs) (trimEnd_eq_self_iff.1 closes)

theorem trim_subset (cs : List Char) : trim cs ⊆ cs := by
  intro c mem
  obtain ⟨gap, -, h⟩ := exists_gap_trimStart cs
  obtain ⟨gap', -, h'⟩ := exists_gap_trimEnd (trimStart cs)
  rw [h, h']
  exact List.mem_append_right gap (List.mem_append_left gap' mem)

theorem trimStart_of_trim {cs : List Char} (trimmed : trim cs = cs) : trimStart cs = cs := by
  rw [← trimmed]
  exact trimStart_of_opensVisibly (opensVisibly_trim cs)

theorem isAllBlank_trimEnd (cs : List Char) : isAllBlank (trimEnd cs) = isAllBlank cs := by
  obtain ⟨gap, blank, h⟩ := exists_gap_trimEnd cs
  have whole : isAllBlank cs = (isAllBlank (trimEnd cs) && isAllBlank gap) :=
    (congrArg isAllBlank h).trans List.all_append
  rw [whole, blank, Bool.and_true]

end Text

namespace Import

open Text

/-- A text that no name before it goes on with. -/
def EndsName (cs : List Char) : Prop :=
  ∀ c ∈ cs.head?, isIdentContinue c = false

theorem endsName_nil : EndsName [] := by
  simp [EndsName]

theorem endsName_cons {c : Char} {cs : List Char} :
    EndsName (c :: cs) ↔ isIdentContinue c = false := by
  simp [EndsName]

theorem EndsName.append {cs : List Char} (ends : EndsName cs) (ne : cs ≠ [])
    (more : List Char) : EndsName (cs ++ more) := by
  obtain ⟨c, cs, rfl⟩ := List.exists_cons_of_ne_nil ne
  exact endsName_cons.2 (endsName_cons.1 ends)

theorem endsName_append_of_ne_nil {gap : List Char} (blank : isAllBlank gap = true)
    (apart : gap ≠ []) (cs : List Char) : EndsName (gap ++ cs) := by
  cases gap with
  | nil => exact absurd rfl apart
  | cons c gap =>
      rw [isAllBlank, List.all_cons, Bool.and_eq_true] at blank
      exact endsName_cons.2 (isIdentContinue_of_isBlank blank.1)

theorem endsName_append {gap cs : List Char} (blank : isAllBlank gap = true)
    (ends : EndsName cs) : EndsName (gap ++ cs) := by
  by_cases apart : gap = []
  · simpa [apart] using ends
  · exact endsName_append_of_ne_nil blank apart cs

/-- The texts of names. -/
def IsName (text : List Char) : Prop :=
  ∃ c more, text = c :: more ∧ isIdentStart c = true ∧ ∀ d ∈ more, isIdentContinue d = true

namespace IsName

variable {text : List Char}

theorem ne_nil (name : IsName text) : text ≠ [] := by
  obtain ⟨c, more, rfl, -, -⟩ := name
  exact List.cons_ne_nil c more

theorem head?_any (name : IsName text) (cs : List Char) :
    (text ++ cs).head?.any isIdentStart = true := by
  obtain ⟨c, more, rfl, start, -⟩ := name
  simpa using start

theorem opensVisibly (name : IsName text) (cs : List Char) : OpensVisibly (text ++ cs) := by
  obtain ⟨c, more, rfl, start, -⟩ := name
  rw [List.cons_append, opensVisibly_cons, ← Bool.not_eq_true]
  intro blank
  have := isIdentContinue_of_isBlank blank
  rw [isIdentContinue_of_isIdentStart start] at this
  cases this

theorem all_isIdentContinue (name : IsName text) : ∀ c ∈ text, isIdentContinue c = true := by
  obtain ⟨c, more, rfl, start, all⟩ := name
  rw [List.forall_mem_cons]
  exact ⟨isIdentContinue_of_isIdentStart start, all⟩

theorem not_endsName (name : IsName text) (cs : List Char) : ¬EndsName (text ++ cs) := by
  obtain ⟨c, more, rfl, start, -⟩ := name
  rw [List.cons_append, endsName_cons, isIdentContinue_of_isIdentStart start]
  exact Bool.true_eq_false.mp

theorem opensVisibly_reverse (name : IsName text) : OpensVisibly text.reverse := by
  intro c hc
  have mem : c ∈ text := List.mem_reverse.1 (List.mem_of_mem_head? hc)
  rw [← Bool.not_eq_true]
  intro blank
  have := isIdentContinue_of_isBlank blank
  rw [name.all_isIdentContinue c mem] at this
  cases this

theorem append_inj {text' cs cs' : List Char} (name : IsName text) (name' : IsName text')
    (ends : EndsName cs) (ends' : EndsName cs') (h : text ++ cs = text' ++ cs') :
    text = text' ∧ cs = cs' := by
  have left := takeWhile_append_of_head? name.all_isIdentContinue ends
  have right := takeWhile_append_of_head? name'.all_isIdentContinue ends'
  exact ⟨left.1.symm.trans (h ▸ right.1), left.2.symm.trans (h ▸ right.2)⟩

theorem append {more : List Char} (name : IsName text)
    (all : ∀ c ∈ more, isIdentContinue c = true) : IsName (text ++ more) := by
  obtain ⟨c, rest, rfl, start, allRest⟩ := name
  refine ⟨c, rest ++ more, rfl, start, fun d hd => ?_⟩
  rcases List.mem_append.1 hd with hd | hd
  · exact allRest d hd
  · exact all d hd

end IsName

theorem isName_of_all {word : List Char} (apart : word ≠ [])
    (letters : word.all isAsciiLetter = true) : IsName word := by
  cases word with
  | nil => exact absurd rfl apart
  | cons c word =>
      have start : ∀ d ∈ c :: word, isIdentStart d = true := fun d hd => by
        simp [isIdentStart, List.all_eq_true.1 letters d hd]
      exact ⟨c, word, rfl, start c List.mem_cons_self, fun d hd =>
        isIdentContinue_of_isIdentStart (start d (List.mem_cons_of_mem c hd))⟩

theorem name?_eq_some_iff {cs name rest : List Char} :
    name? cs = some (name, rest) ↔ cs = name ++ rest ∧ IsName name ∧ EndsName rest := by
  constructor
  · intro h
    cases cs with
    | nil => simp [name?] at h
    | cons c cs =>
        simp only [name?] at h
        split at h
        · rename_i start
          obtain ⟨rfl, rfl⟩ := Prod.mk.inj (Option.some.inj h)
          have whole := List.takeWhile_append_dropWhile (p := isIdentContinue) (l := cs)
          obtain ⟨all, ends⟩ := of_takeWhile_append (congrArg (List.takeWhile _) whole)
          exact ⟨by rw [List.cons_append, whole], ⟨c, _, rfl, start, all⟩, ends⟩
        · simp at h
  · rintro ⟨rfl, ⟨c, more, rfl, start, all⟩, ends⟩
    obtain ⟨htake, hdrop⟩ := takeWhile_append_of_head? all ends
    simp [name?, start, htake, hdrop]

theorem afterWord?_append (word cs : List Char) : afterWord? word (word ++ cs) = some cs := by
  induction word with
  | nil => rfl
  | cons w word ih => simpa [afterWord?] using ih

theorem keyword?_eq_some_iff {word : String} {cs rest : List Char} :
    keyword? word cs = some rest ↔ cs = word.toList ++ rest ∧ EndsName rest := by
  have ends : ∀ cs : List Char, cs.head?.any isIdentContinue = false ↔ EndsName cs := by
    intro cs
    cases cs <;> simp [EndsName]
  constructor
  · intro h
    unfold keyword? at h
    split at h
    · rename_i after ha
      split at h
      · simp at h
      · rename_i hends
        obtain rfl := Option.some.inj h
        exact ⟨eq_append_of_afterWord? ha, (ends _).1 (by simpa using hends)⟩
    · simp at h
  · rintro ⟨rfl, hends⟩
    simp [keyword?, afterWord?_append, (ends _).2 hends]

/-- A text that opens with another name does not open with the keyword. -/
theorem keyword?_eq_none_of_ne {word : String} (isWord : IsName word.toList)
    {name rest : List Char} (isName : IsName name) (ends : EndsName rest)
    (ne : name ≠ word.toList) : keyword? word (name ++ rest) = none := by
  cases h : keyword? word (name ++ rest) with
  | none => rfl
  | some after =>
      obtain ⟨same, ends'⟩ := keyword?_eq_some_iff.1 h
      exact absurd (isName.append_inj isWord ends ends' same).1 ne

theorem keyword?_eq_none_of_head? {word : String} (isWord : IsName word.toList)
    {cs : List Char} (h : cs.head?.any isIdentStart = false) : keyword? word cs = none := by
  cases hk : keyword? word cs with
  | none => rfl
  | some after =>
      obtain ⟨rfl, -⟩ := keyword?_eq_some_iff.1 hk
      rw [isWord.head?_any] at h
      cases h

/-- A text that a reader takes, whatever follows. -/
def Takes (read? : List Char → Option (List Char × List Char)) (text : List Char) : Prop :=
  ∀ rest, read? (text ++ rest) = some (text, rest)

theorem takes_quotedMore {quote : Char} {escaped : Bool} {cs text rest : List Char}
    (h : quotedMore? quote escaped cs = some (text, rest)) :
    cs = text ++ rest ∧ Takes (quotedMore? quote escaped) text ∧
      ∃ front, text = front ++ [quote] := by
  induction cs generalizing escaped text with
  | nil => simp [quotedMore?] at h
  | cons c cs ih =>
      simp only [quotedMore?] at h
      split at h
      · rename_i closes
        obtain ⟨rfl, rfl⟩ := Prod.mk.inj (Option.some.inj h)
        have isQuote : c = quote := by
          simp only [Bool.and_eq_true, beq_iff_eq] at closes
          exact closes.2
        exact ⟨rfl, fun rest => by simp [quotedMore?, closes], [], by rw [isQuote]; rfl⟩
      · rename_i further
        obtain ⟨⟨more, after⟩, hmore, he⟩ := Option.map_eq_some_iff.1 h
        obtain ⟨rfl, rfl⟩ := Prod.mk.inj he
        obtain ⟨rfl, takes, front, hfront⟩ := ih hmore
        exact ⟨rfl, fun rest => by simp [quotedMore?, further, takes rest], c :: front,
          congrArg (c :: ·) hfront⟩

theorem quoted?_eq_some_iff {cs text rest : List Char} :
    quoted? cs = some (text, rest) ↔ cs = text ++ rest ∧ Takes quoted? text := by
  constructor
  · intro h
    cases cs with
    | nil => simp [quoted?] at h
    | cons c cs =>
        simp only [quoted?] at h
        split at h
        · rename_i quote
          obtain ⟨⟨more, after⟩, hmore, he⟩ := Option.map_eq_some_iff.1 h
          obtain ⟨rfl, rfl⟩ := Prod.mk.inj he
          obtain ⟨rfl, takes, -⟩ := takes_quotedMore hmore
          exact ⟨rfl, fun rest => by simp [quoted?, quote, takes rest]⟩
        · simp at h
  · rintro ⟨rfl, takes⟩
    exact takes rest

theorem exists_quote_of_takes {text : List Char} (takes : Takes quoted? text) :
    ∃ quote more, text = quote :: more ∧ (quote = '\'' ∨ quote = '"') := by
  have h := takes []
  cases text with
  | nil => simp [quoted?] at h
  | cons c more =>
      rw [List.cons_append] at h
      simp only [quoted?] at h
      split at h
      · rename_i quote
        exact ⟨c, more, rfl, quote⟩
      · simp at h

theorem opensVisibly_reverse_of_quoted {text : List Char} (takes : Takes quoted? text) :
    OpensVisibly text.reverse := by
  obtain ⟨quote, more, rfl, isQuote⟩ := exists_quote_of_takes takes
  have h := takes []
  rw [List.cons_append, quoted?, if_pos isQuote] at h
  obtain ⟨⟨body, after⟩, hbody, he⟩ := Option.map_eq_some_iff.1 h
  obtain ⟨rfl, rfl⟩ : body = more ∧ after = [] := by simpa using he
  obtain ⟨-, -, front, rfl⟩ := takes_quotedMore hbody
  rcases isQuote with rfl | rfl <;> simp [opensVisibly_cons, isBlank]

theorem braceGroup?_cons_cases (depth : Nat) (within : Option Quotation) (c : Char) :
    (∃ depth' within', ∀ cs, braceGroup? depth within (c :: cs) =
        (braceGroup? depth' within' cs).map fun parts => (c :: parts.1, parts.2)) ∨
      c = '\x7d' ∧ ∀ cs, braceGroup? depth within (c :: cs) = some ([c], cs) := by
  match within with
  | some ⟨quote, true⟩ => exact .inl ⟨depth, some ⟨quote, false⟩, fun _ => rfl⟩
  | some ⟨quote, false⟩ =>
      by_cases escape : c = '\\'
      · exact .inl ⟨depth, some ⟨quote, true⟩, fun _ => by simp only [braceGroup?, if_pos escape]⟩
      · by_cases closes : c = quote
        · exact .inl ⟨depth, none, fun _ => by
            simp only [braceGroup?, if_neg escape, if_pos closes]⟩
        · exact .inl ⟨depth, some ⟨quote, false⟩, fun _ => by
            simp only [braceGroup?, if_neg escape, if_neg closes]⟩
  | none =>
      by_cases quote : c = '\'' ∨ c = '"'
      · exact .inl ⟨depth, some ⟨c, false⟩, fun _ => by simp only [braceGroup?, if_pos quote]⟩
      by_cases opens : c = '\x7b'
      · exact .inl ⟨depth + 1, none, fun _ => by
          simp only [braceGroup?, if_neg quote, if_pos opens]⟩
      by_cases closes : c = '\x7d'
      · by_cases last : depth ≤ 1
        · exact .inr ⟨closes, fun _ => by
            simp only [braceGroup?, if_neg quote, if_neg opens, if_pos closes, if_pos last]⟩
        · exact .inl ⟨depth - 1, none, fun _ => by
            simp only [braceGroup?, if_neg quote, if_neg opens, if_pos closes, if_neg last]⟩
      · exact .inl ⟨depth, none, fun _ => by
          simp only [braceGroup?, if_neg quote, if_neg opens, if_neg closes]⟩

theorem takes_braceGroup {depth : Nat} {within : Option Quotation} {cs text rest : List Char}
    (h : braceGroup? depth within cs = some (text, rest)) :
    cs = text ++ rest ∧ Takes (braceGroup? depth within) text ∧
      ∃ front, text = front ++ ['\x7d'] := by
  induction cs generalizing depth within text with
  | nil => simp [braceGroup?] at h
  | cons c cs ih =>
      rcases braceGroup?_cons_cases depth within c with ⟨depth', within', step⟩ | ⟨rfl, step⟩
      · rw [step] at h
        obtain ⟨⟨more, after⟩, hmore, he⟩ := Option.map_eq_some_iff.1 h
        obtain ⟨rfl, rfl⟩ := Prod.mk.inj he
        obtain ⟨rfl, takes, front, hfront⟩ := ih hmore
        exact ⟨rfl, fun rest => by rw [List.cons_append, step, takes rest]; rfl, c :: front,
          congrArg (c :: ·) hfront⟩
      · rw [step] at h
        obtain ⟨rfl, rfl⟩ := Prod.mk.inj (Option.some.inj h)
        exact ⟨rfl, step, [], rfl⟩

theorem braced?_eq_some_iff {cs text rest : List Char} :
    braced? cs = some (text, rest) ↔ cs = text ++ rest ∧ Takes braced? text := by
  constructor
  · intro h
    unfold braced? at h
    split at h
    · obtain ⟨⟨more, after⟩, hmore, he⟩ := Option.map_eq_some_iff.1 h
      obtain ⟨rfl, rfl⟩ := Prod.mk.inj he
      obtain ⟨rfl, takes, -⟩ := takes_braceGroup hmore
      exact ⟨rfl, fun rest => by simp [braced?, takes rest]⟩
    · simp at h
  · rintro ⟨rfl, takes⟩
    exact takes rest

theorem exists_brace_of_takes {text : List Char} (takes : Takes braced? text) :
    ∃ more, text = '\x7b' :: more := by
  have h := takes []
  unfold braced? at h
  split at h
  · obtain ⟨⟨more, after⟩, -, he⟩ := Option.map_eq_some_iff.1 h
    exact ⟨more, (Prod.mk.inj he).1.symm⟩
  · simp at h

theorem opensVisibly_reverse_of_braced {text : List Char} (takes : Takes braced? text) :
    OpensVisibly text.reverse := by
  obtain ⟨more, rfl⟩ := exists_brace_of_takes takes
  have h := takes []
  rw [List.cons_append, braced?] at h
  obtain ⟨⟨body, after⟩, hbody, he⟩ := Option.map_eq_some_iff.1 h
  obtain ⟨rfl, rfl⟩ : body = more ∧ after = [] := by simpa using he
  obtain ⟨-, -, front, rfl⟩ := takes_braceGroup hbody
  simp [opensVisibly_cons, isBlank]

def IsExportName (text : List Char) : Prop :=
  IsName text ∨ Takes quoted? text

theorem exportName?_eq_some_iff {cs text rest : List Char} :
    exportName? cs = some (text, rest) ↔
      cs = text ++ rest ∧ (IsName text ∧ EndsName rest ∨ Takes quoted? text) := by
  constructor
  · intro h
    unfold exportName? at h
    split at h
    · obtain ⟨hcs, takes⟩ := quoted?_eq_some_iff.1 h
      exact ⟨hcs, .inr takes⟩
    · obtain ⟨hcs, takes⟩ := quoted?_eq_some_iff.1 h
      exact ⟨hcs, .inr takes⟩
    · obtain ⟨hcs, name, ends⟩ := name?_eq_some_iff.1 h
      exact ⟨hcs, .inl ⟨name, ends⟩⟩
  · rintro ⟨rfl, ⟨name, ends⟩ | takes⟩
    · obtain ⟨c, more, rfl, start, all⟩ := name
      have notQuote : c ≠ '\'' ∧ c ≠ '"' :=
        ⟨by rintro rfl; exact absurd start (by decide),
          by rintro rfl; exact absurd start (by decide)⟩
      have hname := name?_eq_some_iff.2 ⟨rfl, ⟨c, more, rfl, start, all⟩, ends⟩
      unfold exportName?
      simp only [List.cons_append, List.head?_cons] at hname ⊢
      split <;> simp_all
    · obtain ⟨quote, more, rfl, rfl | rfl⟩ := exists_quote_of_takes takes
      · exact takes rest
      · exact takes rest

theorem IsExportName.opensVisibly {text : List Char} (exports : IsExportName text)
    (cs : List Char) : OpensVisibly (text ++ cs) := by
  rcases exports with name | takes
  · exact name.opensVisibly cs
  · obtain ⟨quote, more, rfl, rfl | rfl⟩ := exists_quote_of_takes takes
    · exact opensVisibly_cons.2 (by decide)
    · exact opensVisibly_cons.2 (by decide)

theorem IsExportName.ne_nil {text : List Char} (exports : IsExportName text) : text ≠ [] := by
  rcases exports with name | takes
  · exact name.ne_nil
  · obtain ⟨quote, more, rfl, -⟩ := exists_quote_of_takes takes
    exact List.cons_ne_nil quote more

theorem IsExportName.opensVisibly_reverse {text : List Char} (exports : IsExportName text) :
    OpensVisibly text.reverse := by
  rcases exports with name | takes
  · exact name.opensVisibly_reverse
  · exact opensVisibly_reverse_of_quoted takes

end Import

end ScriptConsole

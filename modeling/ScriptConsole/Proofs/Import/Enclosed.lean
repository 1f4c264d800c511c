import ScriptConsole.Proofs.Import.Reading

/-!
# Quoted text and groups in brackets

What a declaration encloses in marks, told without the state of the readers: quoted
text up to its quote, and a group up to the bracket that closes it.  The readers take
the texts of these grammars and no others.
-/

namespace ScriptConsole.Import

/-! ## Quoted text -/

/-- Quoted text after its opening quote.  A backslash hides the character after it. -/
inductive QuotedMore (quote : Char) : List Char → Prop where
  | close : QuotedMore quote [quote]
  | plain {c : Char} {cs : List Char} (visible : c ≠ '\\' ∧ c ≠ quote)
      (more : QuotedMore quote cs) : QuotedMore quote (c :: cs)
  | escaped (c : Char) {cs : List Char} (more : QuotedMore quote cs) :
      QuotedMore quote ('\\' :: c :: cs)

/-- The texts between two equal quotes, with the quotes. -/
inductive IsQuoted : List Char → Prop where
  | mk {quote : Char} {cs : List Char} (isQuote : quote = '\'' ∨ quote = '"')
      (more : QuotedMore quote cs) : IsQuoted (quote :: cs)

/-- What has been read of quoted text, with the backslash before it if there is one. -/
theorem quotedMore_of_read {quote : Char} {escaped : Bool} {cs text rest : List Char}
    (h : quotedMore? quote escaped cs = some (text, rest)) :
    QuotedMore quote (if escaped then '\\' :: text else text) := by
  induction cs generalizing escaped text with
  | nil => cases h
  | cons c cs ih =>
      rw [quotedMore?] at h
      split at h
      · rename_i closes
        rw [Bool.and_eq_true, Bool.not_eq_true', beq_iff_eq] at closes
        obtain ⟨rfl, rfl⟩ := closes
        obtain ⟨rfl, -⟩ := Prod.mk.inj (Option.some.inj h)
        exact .close
      · rename_i further
        obtain ⟨⟨more, after⟩, hmore, he⟩ := Option.map_eq_some_iff.1 h
        obtain ⟨rfl, rfl⟩ := Prod.mk.inj he
        have inner := ih hmore
        cases escaped with
        | true => exact .escaped c inner
        | false =>
            by_cases escape : c = '\\'
            · subst escape
              exact inner
            · have visible : c ≠ quote := by simpa using further
              rw [Bool.not_false, Bool.true_and, beq_eq_false_iff_ne.2 escape] at inner
              exact .plain ⟨escape, visible⟩ inner

theorem QuotedMore.read {quote : Char} {text : List Char} (quoted : QuotedMore quote text)
    (notEscape : quote ≠ '\\') (rest : List Char) :
    quotedMore? quote false (text ++ rest) = some (text, rest) := by
  induction quoted with
  | close => simp [quotedMore?]
  | @plain c cs visible more ih =>
      have noEscape : (c == '\\') = false := beq_eq_false_iff_ne.2 visible.1
      simp [quotedMore?, visible.2, noEscape, ih]
  | escaped c more ih => simp [quotedMore?, Ne.symm notEscape, ih]

theorem ne_backslash_of_isQuote {quote : Char} (isQuote : quote = '\'' ∨ quote = '"') :
    quote ≠ '\\' := by
  rcases isQuote with rfl | rfl <;> decide

theorem takes_quoted_iff {text : List Char} : Takes quoted? text ↔ IsQuoted text := by
  constructor
  · intro takes
    obtain ⟨quote, more, rfl, isQuote⟩ := exists_quote_of_takes takes
    have h := takes []
    rw [List.cons_append, quoted?, if_pos isQuote] at h
    obtain ⟨⟨body, after⟩, hbody, he⟩ := Option.map_eq_some_iff.1 h
    obtain ⟨rfl, -⟩ : body = more ∧ after = [] := by simpa using he
    exact .mk isQuote (quotedMore_of_read hbody)
  · rintro ⟨isQuote, more⟩ rest
    rw [List.cons_append, quoted?, if_pos isQuote,
      more.read (ne_backslash_of_isQuote isQuote)]
    rfl

/-! ## Groups -/

/-- The characters that a group does not step over. -/
def groupMarks : List Char :=
  ['\'', '"', '\x7b', '\x7d']

/-- The inside of a group: its brackets are paired, and quoted text hides brackets. -/
inductive Balanced : List Char → Prop where
  | nil : Balanced []
  | plain {c : Char} {cs : List Char} (other : c ∉ groupMarks) (more : Balanced cs) :
      Balanced (c :: cs)
  | quoted {text cs : List Char} (quoted : IsQuoted text) (more : Balanced cs) :
      Balanced (text ++ cs)
  | group {inner cs : List Char} (within : Balanced inner) (more : Balanced cs) :
      Balanced ('\x7b' :: (inner ++ '\x7d' :: cs))

/-- The texts of groups in curly brackets. -/
inductive IsGroup : List Char → Prop where
  | mk {inner : List Char} (within : Balanced inner) :
      IsGroup ('\x7b' :: (inner ++ ['\x7d']))

/-- What closes so many groups. -/
inductive Closes : Nat → List Char → Prop where
  | last {inner : List Char} (within : Balanced inner) : Closes 1 (inner ++ ['\x7d'])
  | more {depth : Nat} {inner cs : List Char} (within : Balanced inner)
      (further : Closes depth cs) : Closes (depth + 1) (inner ++ '\x7d' :: cs)

namespace Closes

variable {depth : Nat} {cs : List Char}

theorem plain {c : Char} (other : c ∉ groupMarks) (closes : Closes depth cs) :
    Closes depth (c :: cs) := by
  cases closes with
  | last within => exact .last (.plain other within)
  | more within further => exact .more (.plain other within) further

theorem quoted {text : List Char} (quoted : IsQuoted text) (closes : Closes depth cs) :
    Closes depth (text ++ cs) := by
  cases closes with
  | last within =>
      rw [← List.append_assoc]
      exact .last (.quoted quoted within)
  | more within further =>
      rw [← List.append_assoc]
      exact .more (.quoted quoted within) further

theorem pos (closes : Closes depth cs) : 0 < depth := by
  cases closes with
  | last => exact Nat.zero_lt_one
  | more => exact Nat.succ_pos _

theorem group (closes : Closes (depth + 1) cs) (within : 0 < depth) :
    Closes depth ('\x7b' :: cs) := by
  cases closes with
  | last => cases within
  | @more _ inner cs first further =>
      cases further with
      | @last inner' second =>
          have whole : '\x7b' :: (inner ++ '\x7d' :: (inner' ++ ['\x7d'])) =
              '\x7b' :: (inner ++ '\x7d' :: inner') ++ ['\x7d'] := by simp
          rw [whole]
          exact .last (.group first second)
      | @more depth inner' cs second further =>
          have whole : '\x7b' :: (inner ++ '\x7d' :: (inner' ++ '\x7d' :: cs)) =
              '\x7b' :: (inner ++ '\x7d' :: inner') ++ '\x7d' :: cs := by simp
          rw [whole]
          exact .more (.group first second) further

end Closes

/-- What is left of a group from a state of its reader on. -/
def Leaves (depth : Nat) : Option Quotation → List Char → Prop
  | none, text => Closes depth text
  | some ⟨quote, escaped⟩, text =>
      ∃ quoted more, text = quoted ++ more ∧
        QuotedMore quote (if escaped then '\\' :: quoted else quoted) ∧ Closes depth more

theorem leaves_of_read {depth : Nat} {within : Option Quotation} {cs text rest : List Char}
    (inside : 0 < depth) (h : braceGroup? depth within cs = some (text, rest)) :
    Leaves depth within text := by
  induction cs generalizing depth within text with
  | nil => cases h
  | cons c cs ih =>
      have further : ∀ {depth' within'}, 0 < depth' →
          (braceGroup? depth' within' cs).map (fun parts => (c :: parts.1, parts.2)) =
            some (text, rest) → ∃ more, text = c :: more ∧ Leaves depth' within' more := by
        intro depth' within' inside' hmap
        obtain ⟨⟨more, after⟩, hmore, he⟩ := Option.map_eq_some_iff.1 hmap
        obtain ⟨rfl, rfl⟩ := Prod.mk.inj he
        exact ⟨more, rfl, ih inside' hmore⟩
      -- A state inside quoted text owes the rest of that text first; outside it the
      -- character is one of the marks or is stepped over.
      match within with
      | some ⟨quote, true⟩ =>
          obtain ⟨more, rfl, quoted, after, rfl, within, closes⟩ := further inside h
          exact ⟨c :: quoted, after, rfl, .escaped c within, closes⟩
      | some ⟨quote, false⟩ =>
          simp only [braceGroup?] at h
          split at h
          · rename_i escape
            obtain ⟨more, rfl, quoted, after, rfl, within, closes⟩ := further inside h
            rw [escape]
            exact ⟨'\\' :: quoted, after, rfl, within, closes⟩
          · rename_i noEscape
            split at h
            · rename_i closing
              obtain ⟨more, rfl, closes⟩ := further inside h
              rw [closing]
              exact ⟨[quote], more, rfl, .close, closes⟩
            · rename_i visible
              obtain ⟨more, rfl, quoted, after, rfl, within, closes⟩ := further inside h
              exact ⟨c :: quoted, after, rfl, .plain ⟨noEscape, visible⟩ within, closes⟩
      | none =>
          simp only [braceGroup?] at h
          split at h
          · rename_i isQuote
            obtain ⟨more, rfl, quoted, after, rfl, within, closes⟩ := further inside h
            exact closes.quoted (.mk isQuote within)
          · rename_i noQuote
            split at h
            · rename_i opens
              obtain ⟨more, rfl, closes⟩ := further (Nat.succ_pos depth) h
              rw [opens]
              exact closes.group inside
            · rename_i noOpening
              split at h
              · rename_i closing
                split at h
                · rename_i last
                  obtain ⟨rfl, -⟩ := Prod.mk.inj (Option.some.inj h)
                  obtain rfl : depth = 1 := Nat.le_antisymm last inside
                  rw [closing]
                  exact .last .nil
                · rename_i notLast
                  obtain ⟨more, rfl, closes⟩ := further (by omega) h
                  have deeper : depth - 1 + 1 = depth := by omega
                  rw [closing, ← deeper]
                  exact .more .nil closes
              · rename_i noClosing
                obtain ⟨more, rfl, closes⟩ := further inside h
                have other : c ∉ groupMarks := by simp_all [groupMarks]
                exact closes.plain other

theorem QuotedMore.read_group {quote : Char} {text : List Char}
    (quoted : QuotedMore quote text) (notEscape : quote ≠ '\\') (depth : Nat)
    (cs : List Char) :
    braceGroup? depth (some ⟨quote, false⟩) (text ++ cs) =
      (braceGroup? depth none cs).map fun parts => (text ++ parts.1, parts.2) := by
  induction quoted with
  | close => simp [braceGroup?, notEscape]
  | plain visible more ih =>
      simp [braceGroup?, visible, ih, Function.comp_def]
  | escaped c more ih =>
      simp [braceGroup?, ih, Function.comp_def]

theorem Balanced.read {inner : List Char} (balanced : Balanced inner) {depth : Nat}
    (inside : 0 < depth) (cs : List Char) :
    braceGroup? depth none (inner ++ cs) =
      (braceGroup? depth none cs).map fun parts => (inner ++ parts.1, parts.2) := by
  induction balanced generalizing depth cs with
  | nil => simp
  | plain other more ih =>
      simp only [groupMarks, List.mem_cons, List.not_mem_nil, or_false, not_or] at other
      simp [braceGroup?, other, ih inside, Function.comp_def]
  | quoted quoted more ih =>
      obtain ⟨isQuote, inner⟩ := quoted
      have stepped := inner.read_group (ne_backslash_of_isQuote isQuote) depth
      simp [braceGroup?, isQuote, stepped, ih inside, Function.comp_def]
  | group within more ih ih' =>
      have opening : ∀ cs, braceGroup? depth none ('\x7b' :: cs) =
          (braceGroup? (depth + 1) none cs).map fun parts => ('\x7b' :: parts.1, parts.2) := by
        intro cs
        simp [braceGroup?]
      have closing : ∀ cs, braceGroup? (depth + 1) none ('\x7d' :: cs) =
          (braceGroup? depth none cs).map fun parts => ('\x7d' :: parts.1, parts.2) := by
        intro cs
        simp [braceGroup?, Nat.ne_of_gt inside]
      simp only [List.cons_append, List.append_assoc]
      rw [opening, ih (Nat.succ_pos depth), closing, ih' inside]
      simp [Function.comp_def]

theorem takes_braced_iff {text : List Char} : Takes braced? text ↔ IsGroup text := by
  constructor
  · intro takes
    obtain ⟨more, rfl⟩ := exists_brace_of_takes takes
    have h := takes []
    rw [List.cons_append, braced?] at h
    obtain ⟨⟨body, after⟩, hbody, he⟩ := Option.map_eq_some_iff.1 h
    obtain ⟨rfl, -⟩ : body = more ∧ after = [] := by simpa using he
    have closes : Closes 1 body := leaves_of_read Nat.zero_lt_one hbody
    cases closes with
    | last within => exact .mk within
    | more within further => exact absurd further.pos (Nat.lt_irrefl 0)
  · rintro ⟨within⟩ rest
    simp [braced?, within.read Nat.zero_lt_one, braceGroup?]

end ScriptConsole.Import

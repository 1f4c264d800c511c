import ScriptConsole.Proofs.Import.Reading

/-!
# The grammar of import declarations

The texts of declarations as a grammar, and the proof that the readers accept
these texts and no others.  The blanks after a part belong to it, so each part
is read up to the first character of the next one.
-/

namespace ScriptConsole.Import

open Text

theorem isName_as : IsName "as".toList := isName_of_all (by simp) (by decide)

theorem isName_type : IsName "type".toList := isName_of_all (by simp) (by decide)

theorem isName_from : IsName "from".toList := isName_of_all (by simp) (by decide)

/-! ## Entries -/

/-- The texts of an entry of a group, of one for a type if there is no entry. -/
inductive SpellsEntry : Option Entry → List Char → Prop where
  | plain {exported : List Char} (exports : IsExportName exported) :
      SpellsEntry (some ⟨exported, none⟩) exported
  | renamed {exported gap gap' rename : List Char} (exports : IsExportName exported)
      (blank : isAllBlank gap = true) (apart : IsName exported → gap ≠ [])
      (blank' : isAllBlank gap' = true) (apart' : gap' ≠ []) (isName : IsName rename) :
      SpellsEntry (some ⟨exported, some rename⟩)
        (exported ++ (gap ++ ("as".toList ++ (gap' ++ rename))))
  | type {gap name : List Char} (blank : isAllBlank gap = true) (apart : gap ≠ [])
      (isName : IsName name) (notAs : name ≠ "as".toList) :
      SpellsEntry none ("type".toList ++ (gap ++ name))

theorem opensVisibly_as (cs : List Char) : OpensVisibly ("as".toList ++ cs) :=
  isName_as.opensVisibly cs

theorem marksType_eq_true_iff {word cs : List Char} :
    marksType word cs = true ↔
      word = "type".toList ∧ keyword? "as" cs = none ∧ cs.head?.any isIdentStart = true := by
  simp [marksType, and_assoc]

theorem marksType_of_keyword? {word cs rest : List Char} (h : keyword? "as" cs = some rest) :
    marksType word cs = false := by
  simp [marksType, h]

theorem marksType_of_head? {word cs : List Char} (h : cs.head?.any isIdentStart = false) :
    marksType word cs = false := by
  simp [marksType, h]

theorem exists_spellsEntry {cs rest : List Char} {entry : Option Entry}
    (h : entry? cs = some (entry, rest)) :
    ∃ text gap, cs = text ++ (gap ++ rest) ∧ SpellsEntry entry text ∧
      isAllBlank gap = true := by
  unfold entry? at h
  simp only [Option.bind_eq_bind, Option.bind_eq_some_iff] at h
  obtain ⟨⟨exported, after⟩, hexported, h⟩ := h
  obtain ⟨rfl, exports⟩ := exportName?_eq_some_iff.1 hexported
  obtain ⟨gap, blank, hafter⟩ := exists_gap_trimStart after
  have isExport : IsExportName exported := exports.imp (·.1) id
  dsimp only at h
  split at h
  · rename_i marks
    obtain ⟨rfl, notAs, -⟩ := marksType_eq_true_iff.1 marks
    simp only [Option.bind_eq_some_iff, Option.some.injEq, Prod.mk.injEq] at h
    obtain ⟨⟨name, last⟩, hname, rfl, rfl⟩ := h
    obtain ⟨hname, isName, ends⟩ := name?_eq_some_iff.1 hname
    have endsType : EndsName after := by
      rcases exports with ⟨-, ends⟩ | takes
      · exact ends
      · obtain ⟨quote, more, htype, hquote⟩ := exists_quote_of_takes takes
        obtain ⟨rfl, -⟩ := List.cons.inj htype
        exact absurd hquote (by decide)
    refine ⟨"type".toList ++ (gap ++ name), [], ?_, .type blank ?_ isName ?_, rfl⟩
    · rw [hname] at hafter
      simp [hafter]
    · rintro rfl
      rw [hafter, hname] at endsType
      exact isName.not_endsName last endsType
    · rintro rfl
      rw [hname, keyword?_eq_some_iff.2 ⟨rfl, ends⟩] at notAs
      cases notAs
  · split at h
    · rename_i more hk
      simp only [Option.bind_eq_some_iff, Option.some.injEq, Prod.mk.injEq] at h
      obtain ⟨⟨rename, last⟩, hname, rfl, rfl⟩ := h
      obtain ⟨hk, endsAs⟩ := keyword?_eq_some_iff.1 hk
      obtain ⟨gap', blank', hmore⟩ := exists_gap_trimStart more
      obtain ⟨hname, isName, -⟩ := name?_eq_some_iff.1 hname
      refine ⟨exported ++ (gap ++ ("as".toList ++ (gap' ++ rename))), [], ?_,
        .renamed isExport blank ?_ blank' ?_ isName, rfl⟩
      · rw [hname] at hmore
        rw [hk, hmore] at hafter
        simp [hafter]
      · rintro isName rfl
        rw [hafter, hk] at exports
        rcases exports with ⟨-, ends⟩ | takes
        · exact isName_as.not_endsName _ ends
        · obtain ⟨quote, text, rfl, hquote⟩ := exists_quote_of_takes takes
          have start := isName.head?_any []
          rcases hquote with rfl | rfl <;> exact absurd start (by simp; decide)
      · rintro rfl
        rw [hmore, hname] at endsAs
        exact isName.not_endsName _ endsAs
    · simp only [Option.some.injEq, Prod.mk.injEq] at h
      obtain ⟨rfl, rfl⟩ := h
      exact ⟨exported, gap, congrArg (exported ++ ·) hafter, .plain isExport, blank⟩

/-- A character that no name opens with or goes on with, and that is no blank. -/
def Divides (c : Char) : Prop :=
  isIdentContinue c = false ∧ isBlank c = false

theorem Divides.head?_any {c : Char} (divides : Divides c) (cs : List Char) :
    (c :: cs).head?.any isIdentStart = false := by
  rw [List.head?_cons, Option.any_some, ← Bool.not_eq_true]
  intro start
  have := isIdentContinue_of_isIdentStart start
  rw [divides.1] at this
  cases this

theorem Divides.trimStart_append {c : Char} (divides : Divides c) {gap : List Char}
    (blank : isAllBlank gap = true) (cs : List Char) : trimStart (gap ++ c :: cs) = c :: cs :=
  trimStart_append_of_opensVisibly blank (opensVisibly_cons.2 divides.2)

theorem divides_comma : Divides ',' := ⟨by decide, by decide⟩

theorem divides_brace : Divides '\x7d' := ⟨by decide, by decide⟩

theorem entry?_of_type {gap name : List Char} (blank : isAllBlank gap = true)
    (apart : gap ≠ []) (isName : IsName name) (notAs : name ≠ "as".toList) {cs : List Char}
    (ends : EndsName cs) :
    entry? ("type".toList ++ (gap ++ (name ++ cs))) = some (none, cs) := by
  have read : exportName? ("type".toList ++ (gap ++ (name ++ cs))) =
      some ("type".toList, gap ++ (name ++ cs)) :=
    exportName?_eq_some_iff.2
      ⟨rfl, .inl ⟨isName_type, endsName_append_of_ne_nil blank apart (name ++ cs)⟩⟩
  have trimmed : trimStart (gap ++ (name ++ cs)) = name ++ cs :=
    trimStart_append_of_opensVisibly blank (isName.opensVisibly cs)
  have marks : marksType "type".toList (name ++ cs) = true :=
    marksType_eq_true_iff.2 ⟨rfl, keyword?_eq_none_of_ne isName_as isName ends notAs,
      isName.head?_any cs⟩
  have named : name? (name ++ cs) = some (name, cs) :=
    name?_eq_some_iff.2 ⟨rfl, isName, ends⟩
  simp only [ entry?, read, Option.bind_eq_bind, Option.bind_some, trimmed, marks, if_true, named]

/-- An entry is read up to the character that divides it from what follows. -/
theorem exists_entry?_of_spells {entry : Option Entry} {text gap : List Char} {c : Char}
    (spells : SpellsEntry entry text) (blank : isAllBlank gap = true) (divides : Divides c)
    (cs : List Char) :
    ∃ rest, entry? (text ++ (gap ++ c :: cs)) = some (entry, rest) ∧
      trimStart rest = c :: cs := by
  have further : EndsName (gap ++ c :: cs) :=
    endsName_append blank (endsName_cons.2 divides.1)
  have reached := divides.trimStart_append blank cs
  have exportRead : ∀ {exported after : List Char}, IsExportName exported →
      (IsName exported → EndsName after) →
      exportName? (exported ++ after) = some (exported, after) := by
    intro exported after exports ends
    exact exportName?_eq_some_iff.2 ⟨rfl, exports.imp (fun name => ⟨name, ends name⟩) id⟩
  cases spells with
  | plain exports =>
      have head := divides.head?_any cs
      refine ⟨c :: cs, ?_, trimStart_of_opensVisibly (opensVisibly_cons.2 divides.2)⟩
      simp [ entry?, exportRead exports fun _ => further, reached, marksType_of_head? head,
        keyword?_eq_none_of_head? isName_as head]
  | @renamed exported gapBefore gapAfter rename exports blankBefore apart blankAfter apart'
      isName =>
      have read := exportRead exports fun name =>
        endsName_append_of_ne_nil blankBefore (apart name)
          ("as".toList ++ (gapAfter ++ (rename ++ (gap ++ c :: cs))))
      have trimmed : trimStart
          (gapBefore ++ ("as".toList ++ (gapAfter ++ (rename ++ (gap ++ c :: cs))))) = _ :=
        trimStart_append_of_opensVisibly blankBefore (opensVisibly_as _)
      have renames : keyword? "as" ("as".toList ++ (gapAfter ++ (rename ++ (gap ++ c :: cs)))) =
          some _ :=
        keyword?_eq_some_iff.2 ⟨rfl, endsName_append_of_ne_nil blankAfter apart' _⟩
      have trimmed' : trimStart (gapAfter ++ (rename ++ (gap ++ c :: cs))) = _ :=
        trimStart_append_of_opensVisibly blankAfter (isName.opensVisibly _)
      have named : name? (rename ++ (gap ++ c :: cs)) = some (rename, gap ++ c :: cs) :=
        name?_eq_some_iff.2 ⟨rfl, isName, further⟩
      refine ⟨gap ++ c :: cs, ?_, reached⟩
      simp only [List.append_assoc, entry?, read, Option.bind_eq_bind, Option.bind_some, trimmed,
        marksType_of_keyword? renames, Bool.false_eq_true, if_false, renames, trimmed', named]
  | type blankBefore apart isName notAs =>
      have read := entry?_of_type blankBefore apart isName notAs further
      refine ⟨gap ++ c :: cs, ?_, reached⟩
      simpa only [List.append_assoc] using read

theorem SpellsEntry.exists_export {entry : Option Entry} {text : List Char}
    (spells : SpellsEntry entry text) :
    ∃ exported more, IsExportName exported ∧ text = exported ++ more := by
  cases spells with
  | plain exports => exact ⟨_, [], exports, (List.append_nil _).symm⟩
  | renamed exports => exact ⟨_, _, exports, rfl⟩
  | type => exact ⟨_, _, .inl isName_type, rfl⟩

theorem IsExportName.head?_ne_brace {text : List Char} (exports : IsExportName text)
    (cs : List Char) : (text ++ cs).head? ≠ some '\x7d' := by
  rcases exports with name | takes
  · intro h
    have start := name.head?_any cs
    rw [h] at start
    exact absurd start (by decide)
  · obtain ⟨quote, more, rfl, rfl | rfl⟩ := exists_quote_of_takes takes <;> simp

/-- Blanks before an entry are dropped, and it does not close its group. -/
theorem SpellsEntry.trimStart_append {entry : Option Entry} {text gap : List Char}
    (spells : SpellsEntry entry text) (blank : isAllBlank gap = true) (cs : List Char) :
    trimStart (gap ++ (text ++ cs)) = text ++ cs ∧ (text ++ cs).head? ≠ some '\x7d' := by
  obtain ⟨exported, more, exports, rfl⟩ := spells.exists_export
  rw [List.append_assoc]
  exact ⟨trimStart_append_of_opensVisibly blank (exports.opensVisibly _),
    exports.head?_ne_brace _⟩

/-! ## Groups -/

/-- The texts of a group after its opening bracket. -/
inductive SpellsGroup : List Entry → List Char → Prop where
  | close {gap : List Char} (blank : isAllBlank gap = true) : SpellsGroup [] (gap ++ ['\x7d'])
  | last {gap text gap' : List Char} {entry : Option Entry} (blank : isAllBlank gap = true)
      (spells : SpellsEntry entry text) (blank' : isAllBlank gap' = true) :
      SpellsGroup entry.toList (gap ++ (text ++ (gap' ++ ['\x7d'])))
  | more {gap text gap' rest : List Char} {entry : Option Entry} {entries : List Entry}
      (blank : isAllBlank gap = true) (spells : SpellsEntry entry text)
      (blank' : isAllBlank gap' = true) (further : SpellsGroup entries rest) :
      SpellsGroup (entry.toList ++ entries) (gap ++ (text ++ (gap' ++ ',' :: rest)))

theorem exists_spellsGroup {cs rest : List Char} {entries : List Entry}
    (h : entries? cs = some (entries, rest)) :
    ∃ text, cs = text ++ rest ∧ SpellsGroup entries text := by
  fun_induction entries? cs generalizing entries rest with
  | case1 cs closes =>
      obtain ⟨rfl, rfl⟩ := Prod.mk.inj (Option.some.inj h)
      obtain ⟨gap, blank, hcs⟩ := exists_gap_trimStart cs
      obtain ⟨after, hafter⟩ := List.head?_eq_some_iff.1 closes
      refine ⟨gap ++ ['\x7d'], ?_, .close blank⟩
      rw [hafter] at hcs ⊢
      simpa using hcs
  | case2 => cases h
  | case3 cs _ entry after hentry more comma others last hmore ih =>
      obtain ⟨rfl, rfl⟩ := Prod.mk.inj (Option.some.inj h)
      obtain ⟨gap, blank, hcs⟩ := exists_gap_trimStart cs
      obtain ⟨text, gap', htext, spells, blank'⟩ := exists_spellsEntry hentry
      obtain ⟨gap'', blank'', hafter⟩ := exists_gap_trimStart after
      obtain ⟨rest, hrest, further⟩ := ih hmore
      refine ⟨gap ++ (text ++ ((gap' ++ gap'') ++ ',' :: rest)), ?_,
        .more blank spells (isAllBlank_append blank' blank'') further⟩
      rw [hcs, htext, hafter, comma, hrest]
      simp
  | case4 => cases h
  | case5 cs _ entry after hentry last closes =>
      obtain ⟨rfl, rfl⟩ := Prod.mk.inj (Option.some.inj h)
      obtain ⟨gap, blank, hcs⟩ := exists_gap_trimStart cs
      obtain ⟨text, gap', htext, spells, blank'⟩ := exists_spellsEntry hentry
      obtain ⟨gap'', blank'', hafter⟩ := exists_gap_trimStart after
      refine ⟨gap ++ (text ++ ((gap' ++ gap'') ++ ['\x7d'])), ?_,
        .last blank spells (isAllBlank_append blank' blank'')⟩
      rw [hcs, htext, hafter, closes]
      simp
  | case6 => cases h

theorem entries?_of_close {cs rest : List Char} (closes : trimStart cs = '\x7d' :: rest) :
    entries? cs = some ([], rest) := by
  rw [entries?]
  simp [closes]

theorem entries?_of_last {cs rest after : List Char} {entry : Option Entry}
    (notClose : (trimStart cs).head? ≠ some '\x7d')
    (hentry : entry? (trimStart cs) = some (entry, rest))
    (closes : trimStart rest = '\x7d' :: after) :
    entries? cs = some (entry.toList, after) := by
  rw [entries?, if_neg notClose]
  split
  · simp_all
  · rename_i entry' rest' h
    obtain ⟨rfl, rfl⟩ := Prod.mk.inj (Option.some.inj (hentry.symm.trans h))
    split <;> simp_all

theorem entries?_of_more {cs rest more after : List Char} {entry : Option Entry}
    {entries : List Entry} (notClose : (trimStart cs).head? ≠ some '\x7d')
    (hentry : entry? (trimStart cs) = some (entry, rest))
    (comma : trimStart rest = ',' :: more) (further : entries? more = some (entries, after)) :
    entries? cs = some (entry.toList ++ entries, after) := by
  rw [entries?, if_neg notClose]
  split
  · simp_all
  · rename_i entry' rest' h
    obtain ⟨rfl, rfl⟩ := Prod.mk.inj (Option.some.inj (hentry.symm.trans h))
    split <;> simp_all

theorem entries?_of_spells {entries : List Entry} {text : List Char}
    (spells : SpellsGroup entries text) (cs : List Char) :
    entries? (text ++ cs) = some (entries, cs) := by
  induction spells with
  | close blank =>
      refine entries?_of_close ?_
      rw [List.append_assoc]
      exact divides_brace.trimStart_append blank cs
  | @last gap text gap' entry blank spells blank' =>
      obtain ⟨trimmed, notClose⟩ := spells.trimStart_append blank (gap' ++ '\x7d' :: cs)
      obtain ⟨rest, hentry, closes⟩ := exists_entry?_of_spells spells blank' divides_brace cs
      simp only [List.append_assoc, List.cons_append, List.nil_append]
      rw [← trimmed] at notClose hentry
      exact entries?_of_last notClose hentry closes
  | @more gap text gap' rest entry entries blank spells blank' further ih =>
      obtain ⟨trimmed, notClose⟩ := spells.trimStart_append blank (gap' ++ ',' :: (rest ++ cs))
      obtain ⟨after, hentry, comma⟩ :=
        exists_entry?_of_spells spells blank' divides_comma (rest ++ cs)
      simp only [List.append_assoc, List.cons_append]
      rw [← trimmed] at notClose hentry
      exact entries?_of_more notClose hentry comma ih

/-! ## Clauses -/

/-- The texts of the names of a clause that may follow a default name, with the
blanks after them. -/
inductive SpellsNames : Clause → List Char → Prop where
  | whole {gap gap' name gap'' : List Char} (blank : isAllBlank gap = true)
      (blank' : isAllBlank gap' = true) (apart' : gap' ≠ []) (isName : IsName name)
      (blank'' : isAllBlank gap'' = true) (apart'' : gap'' ≠ []) :
      SpellsNames ⟨none, some name, []⟩
        ('*' :: (gap ++ ("as".toList ++ (gap' ++ (name ++ gap'')))))
  | group {text gap : List Char} {entries : List Entry} (spells : SpellsGroup entries text)
      (blank : isAllBlank gap = true) :
      SpellsNames ⟨none, none, entries⟩ ('\x7b' :: (text ++ gap))

/-- The texts of a clause, with the blanks after it. -/
inductive SpellsClause : Clause → List Char → Prop where
  | default {name gap : List Char} (isName : IsName name) (blank : isAllBlank gap = true)
      (apart : gap ≠ []) : SpellsClause ⟨some name, none, []⟩ (name ++ gap)
  | names {clause : Clause} {text : List Char} (spells : SpellsNames clause text) :
      SpellsClause clause text
  /-- The comma may be left out. -/
  | juxtaposed {name gap text : List Char} {clause : Clause} (isName : IsName name)
      (notType : name ≠ "type".toList) (blank : isAllBlank gap = true)
      (spells : SpellsNames clause text) :
      SpellsClause { clause with defaultName := some name } (name ++ (gap ++ text))
  | both {name gap gap' text : List Char} {clause : Clause} (isName : IsName name)
      (blank : isAllBlank gap = true) (blank' : isAllBlank gap' = true)
      (spells : SpellsNames clause text) :
      SpellsClause { clause with defaultName := some name }
        (name ++ (gap ++ ',' :: (gap' ++ text)))

/-- What follows a clause: the next keyword. -/
def OpensFrom (cs : List Char) : Prop :=
  ∃ after, keyword? "from" cs = some after

theorem OpensFrom.exists_eq {cs : List Char} (opens : OpensFrom cs) :
    ∃ after, cs = "from".toList ++ after ∧ EndsName after := by
  obtain ⟨after, h⟩ := opens
  exact ⟨after, keyword?_eq_some_iff.1 h⟩

theorem OpensFrom.opensVisibly {cs : List Char} (opens : OpensFrom cs) : OpensVisibly cs := by
  obtain ⟨after, rfl, -⟩ := opens.exists_eq
  exact isName_from.opensVisibly after

theorem OpensFrom.not_endsName {cs : List Char} (opens : OpensFrom cs) : ¬EndsName cs := by
  obtain ⟨after, rfl, -⟩ := opens.exists_eq
  exact isName_from.not_endsName after

theorem OpensFrom.ne_nil_of_endsName {cs gap : List Char} (opens : OpensFrom cs)
    (ends : EndsName (gap ++ cs)) : gap ≠ [] := by
  rintro rfl
  exact opens.not_endsName ends

/-- A text that opens the names that may follow a default name. -/
def OpensNames (cs : List Char) : Prop :=
  cs.head? = some '*' ∨ cs.head? = some '\x7b'

namespace OpensNames

variable {cs : List Char}

theorem exists_cons (opens : OpensNames cs) :
    ∃ c more, cs = c :: more ∧ (c = '*' ∨ c = '\x7b') := by
  rcases opens with head | head
  · obtain ⟨more, rfl⟩ := List.head?_eq_some_iff.1 head
    exact ⟨_, more, rfl, .inl rfl⟩
  · obtain ⟨more, rfl⟩ := List.head?_eq_some_iff.1 head
    exact ⟨_, more, rfl, .inr rfl⟩

theorem opensVisibly (opens : OpensNames cs) : OpensVisibly cs := by
  obtain ⟨c, more, rfl, rfl | rfl⟩ := opens.exists_cons <;> exact opensVisibly_cons.2 (by decide)

theorem endsName (opens : OpensNames cs) : EndsName cs := by
  obtain ⟨c, more, rfl, rfl | rfl⟩ := opens.exists_cons <;> exact endsName_cons.2 (by decide)

theorem head?_any (opens : OpensNames cs) : cs.head?.any isIdentStart = false := by
  obtain ⟨c, more, rfl, rfl | rfl⟩ := opens.exists_cons <;>
    rw [List.head?_cons, Option.any_some] <;> decide

theorem head?_ne (opens : OpensNames cs) {c : Char} (other : c ≠ '*' ∧ c ≠ '\x7b') :
    cs.head? ≠ some c := by
  intro head
  rcases opens with h | h
  · exact other.1 (Option.some.inj (head.symm.trans h))
  · exact other.2 (Option.some.inj (head.symm.trans h))

end OpensNames

theorem SpellsNames.opensNames {clause : Clause} {text : List Char}
    (spells : SpellsNames clause text) (cs : List Char) : OpensNames (text ++ cs) := by
  cases spells with
  | whole => exact .inl rfl
  | group => exact .inr rfl

theorem SpellsNames.defaultName_eq {clause : Clause} {text : List Char}
    (spells : SpellsNames clause text) : clause.defaultName = none := by
  cases spells <;> rfl

/-- What remains of a clause when its default name has been read. -/
def namesAfter? (defaultName : Option (List Char)) (cs : List Char) :
    Option (Clause × List Char) :=
  match cs with
  | '*' :: rest => do
      let rest ← keyword? "as" (trimStart rest)
      let (name, rest) ← name? (trimStart rest)
      some (⟨defaultName, some name, []⟩, rest)
  | '\x7b' :: rest => do
      let (entries, rest) ← entries? rest
      some (⟨defaultName, none, entries⟩, rest)
  | rest => some (⟨defaultName, none, []⟩, rest)

theorem clause?_eq (cs : List Char) :
    clause? cs = (defaultName? cs).bind fun parts => namesAfter? parts.1 parts.2 := rfl

/-- The names that may follow a default name are read up to the next keyword. -/
theorem exists_namesAfter?_of_spells {clause : Clause} {text cs : List Char}
    (spells : SpellsNames clause text) (opens : OpensFrom cs)
    (defaultName : Option (List Char)) :
    ∃ rest, namesAfter? defaultName (text ++ cs) =
        some ({ clause with defaultName := defaultName }, rest) ∧ trimStart rest = cs := by
  cases spells with
  | @whole gap gap' name gap'' blank blank' apart' isName blank'' apart'' =>
      have trimmed : trimStart
          (gap ++ ("as".toList ++ (gap' ++ (name ++ (gap'' ++ cs))))) = _ :=
        trimStart_append_of_opensVisibly blank (opensVisibly_as _)
      have renames : keyword? "as" ("as".toList ++ (gap' ++ (name ++ (gap'' ++ cs)))) = some _ :=
        keyword?_eq_some_iff.2 ⟨rfl, endsName_append_of_ne_nil blank' apart' _⟩
      have trimmed' : trimStart (gap' ++ (name ++ (gap'' ++ cs))) = _ :=
        trimStart_append_of_opensVisibly blank' (isName.opensVisibly _)
      have named : name? (name ++ (gap'' ++ cs)) = some (name, gap'' ++ cs) :=
        name?_eq_some_iff.2 ⟨rfl, isName, endsName_append_of_ne_nil blank'' apart'' cs⟩
      refine ⟨gap'' ++ cs, ?_, trimStart_append_of_opensVisibly blank'' opens.opensVisibly⟩
      simp only [List.cons_append, List.append_assoc, namesAfter?, trimmed, Option.bind_eq_bind,
        Option.bind_some, renames, trimmed', named]
  | @group text gap entries spells blank =>
      refine ⟨gap ++ cs, ?_, trimStart_append_of_opensVisibly blank opens.opensVisibly⟩
      simp only [List.cons_append, List.append_assoc, namesAfter?, Option.bind_eq_bind,
        Option.bind_some, entries?_of_spells spells]

theorem exists_spellsNames {defaultName : Option (List Char)} {cs rest : List Char}
    {clause : Clause} (h : namesAfter? defaultName cs = some (clause, rest))
    (opens : OpensFrom (trimStart rest)) :
    (clause = ⟨defaultName, none, []⟩ ∧ rest = cs ∧ cs.head? ≠ some '*' ∧
        cs.head? ≠ some '\x7b') ∨
      ∃ text, cs = text ++ trimStart rest ∧
        SpellsNames { clause with defaultName := none } text ∧
        clause.defaultName = defaultName := by
  unfold namesAfter? at h
  obtain ⟨last, blankLast, hlast⟩ := exists_gap_trimStart rest
  split at h
  · rename_i after
    simp only [Option.bind_eq_bind, Option.bind_eq_some_iff, Option.some.injEq,
      Prod.mk.injEq] at h
    obtain ⟨more, hk, ⟨name, rest'⟩, hname, rfl, rfl⟩ := h
    obtain ⟨gap, blank, hafter⟩ := exists_gap_trimStart after
    obtain ⟨gap', blank', hmore⟩ := exists_gap_trimStart more
    obtain ⟨hk, endsAs⟩ := keyword?_eq_some_iff.1 hk
    obtain ⟨hname, isName, ends⟩ := name?_eq_some_iff.1 hname
    refine .inr ⟨_, ?_, .whole blank blank' ?_ isName blankLast ?_, rfl⟩
    · rw [hafter, hk, hmore, hname]
      simp only [List.cons_append, List.append_assoc, ← hlast]
    · rintro rfl
      rw [hmore, hname] at endsAs
      exact isName.not_endsName _ endsAs
    · exact opens.ne_nil_of_endsName (by rwa [← hlast])
  · rename_i after
    simp only [Option.bind_eq_bind, Option.bind_eq_some_iff, Option.some.injEq,
      Prod.mk.injEq] at h
    obtain ⟨⟨entries, rest'⟩, hentries, rfl, rfl⟩ := h
    obtain ⟨text, rfl, spells⟩ := exists_spellsGroup hentries
    refine .inr ⟨_, ?_, .group spells blankLast, rfl⟩
    simp only [List.cons_append, List.append_assoc, ← hlast]
  · rename_i notStar notBrace
    obtain ⟨rfl, rfl⟩ := Prod.mk.inj (Option.some.inj h)
    refine .inl ⟨rfl, rfl, fun star => ?_, fun brace => ?_⟩
    · obtain ⟨more, rfl⟩ := List.head?_eq_some_iff.1 star
      exact notStar more rfl
    · obtain ⟨more, rfl⟩ := List.head?_eq_some_iff.1 brace
      exact notBrace more rfl

theorem OpensFrom.exists_cons {cs : List Char} (opens : OpensFrom cs) :
    ∃ more, cs = 'f' :: more := by
  obtain ⟨after, rfl, -⟩ := opens.exists_eq
  exact ⟨_, rfl⟩

section DefaultName

variable {name gap gap' cs : List Char}

theorem defaultName?_of_name (isName : IsName name) (blank : isAllBlank gap = true)
    (ends : EndsName (gap ++ cs)) (opens : OpensVisibly cs) (noComma : cs.head? ≠ some ',') :
    defaultName? (name ++ (gap ++ cs)) = some (some name, cs) := by
  have named : name? (name ++ (gap ++ cs)) = some (name, gap ++ cs) :=
    name?_eq_some_iff.2 ⟨rfl, isName, ends⟩
  rw [defaultName?, if_pos (isName.head?_any _)]
  simp only [named, Option.bind_eq_bind, Option.bind_some,
    trimStart_append_of_opensVisibly blank opens]
  split
  · simp at noComma
  · rfl

theorem defaultName?_of_comma (isName : IsName name) (blank : isAllBlank gap = true)
    (blank' : isAllBlank gap' = true) (opens : OpensNames cs) :
    defaultName? (name ++ (gap ++ ',' :: (gap' ++ cs))) = some (some name, cs) := by
  have names : cs.head? = some '*' ∨ cs.head? = some '\x7b' := opens
  have ends : EndsName (gap ++ ',' :: (gap' ++ cs)) :=
    endsName_append blank (endsName_cons.2 divides_comma.1)
  have named : name? (name ++ (gap ++ ',' :: (gap' ++ cs))) =
      some (name, gap ++ ',' :: (gap' ++ cs)) := name?_eq_some_iff.2 ⟨rfl, isName, ends⟩
  rw [defaultName?, if_pos (isName.head?_any _)]
  simp only [named, Option.bind_eq_bind, Option.bind_some,
    divides_comma.trimStart_append blank,
    trimStart_append_of_opensVisibly blank' opens.opensVisibly, if_pos names]

theorem defaultName?_of_head? (h : cs.head?.any isIdentStart = false) :
    defaultName? cs = some (none, cs) := by
  simp [defaultName?, h]

end DefaultName

/-- A clause opens with a default name before blanks, with one before a comma, or
with none. -/
theorem defaultName?_cases {cs rest : List Char} {defaultName : Option (List Char)}
    (h : defaultName? cs = some (defaultName, rest)) :
    (defaultName = none ∧ rest = cs ∧ cs.head?.any isIdentStart = false) ∨
      ∃ name gap, IsName name ∧ isAllBlank gap = true ∧ defaultName = some name ∧
        (cs = name ++ (gap ++ rest) ∧ EndsName (gap ++ rest) ∨
          ∃ gap', isAllBlank gap' = true ∧ cs = name ++ (gap ++ ',' :: (gap' ++ rest)) ∧
            (rest.head? = some '*' ∨ rest.head? = some '\x7b')) := by
  unfold defaultName? at h
  split at h
  · simp only [Option.bind_eq_bind, Option.bind_eq_some_iff] at h
    obtain ⟨⟨name, after⟩, hname, h⟩ := h
    obtain ⟨rfl, isName, ends⟩ := name?_eq_some_iff.1 hname
    obtain ⟨gap, blank, hafter⟩ := exists_gap_trimStart after
    dsimp only at h
    refine .inr ⟨name, gap, isName, blank, ?_⟩
    split at h
    · rename_i more hcomma
      obtain ⟨gap', blank', hmore⟩ := exists_gap_trimStart more
      split at h
      · rename_i names
        obtain ⟨rfl, rfl⟩ := Prod.mk.inj (Option.some.inj h)
        exact ⟨rfl, .inr ⟨gap', blank', by rw [← hmore, ← hcomma, ← hafter], names⟩⟩
      · cases h
    · obtain ⟨rfl, rfl⟩ := Prod.mk.inj (Option.some.inj h)
      exact ⟨rfl, .inl ⟨by rw [← hafter], by rwa [← hafter]⟩⟩
  · rename_i noName
    obtain ⟨rfl, rfl⟩ := Prod.mk.inj (Option.some.inj h)
    exact .inl ⟨rfl, rfl, by simpa using noName⟩

theorem exists_clause?_of_spells {clause : Clause} {text cs : List Char}
    (spells : SpellsClause clause text) (opens : OpensFrom cs) :
    ∃ rest, clause? (text ++ cs) = some (clause, rest) ∧ trimStart rest = cs := by
  rw [clause?_eq]
  cases spells with
  | @default name gap isName blank apart =>
      obtain ⟨more, hcs⟩ := opens.exists_cons
      have read := defaultName?_of_name isName blank
        (endsName_append_of_ne_nil blank apart cs) opens.opensVisibly (by simp [hcs])
      refine ⟨cs, ?_, trimStart_of_opensVisibly opens.opensVisibly⟩
      rw [List.append_assoc, read, hcs]
      rfl
  | names spells =>
      obtain ⟨rest, hnames, reached⟩ := exists_namesAfter?_of_spells spells opens none
      refine ⟨rest, ?_, reached⟩
      rw [defaultName?_of_head? (spells.opensNames cs).head?_any, Option.bind_some, hnames,
        ← spells.defaultName_eq]
  | @juxtaposed name gap text clause isName notType blank spells =>
      obtain ⟨rest, hnames, reached⟩ := exists_namesAfter?_of_spells spells opens (some name)
      have names := spells.opensNames cs
      have read := defaultName?_of_name isName blank (endsName_append blank names.endsName)
        names.opensVisibly (names.head?_ne (by decide))
      refine ⟨rest, ?_, reached⟩
      rw [List.append_assoc, List.append_assoc, read]
      exact hnames
  | @both name gap gap' text clause isName blank blank' spells =>
      obtain ⟨rest, hnames, reached⟩ := exists_namesAfter?_of_spells spells opens (some name)
      have read := defaultName?_of_comma isName blank blank' (spells.opensNames cs)
      refine ⟨rest, ?_, reached⟩
      simp only [List.append_assoc, List.cons_append, read]
      exact hnames

theorem isTypeOnly_of_keyword? {cs : List Char} (h : keyword? "type" cs = none) :
    isTypeOnly cs = false := by
  simp [isTypeOnly, h]

theorem keyword?_type_append {cs : List Char} (ends : EndsName cs) :
    keyword? "type" ("type".toList ++ cs) = some cs :=
  keyword?_eq_some_iff.2 ⟨rfl, ends⟩

theorem isTypeOnly_of_spells {clause : Clause} {text cs : List Char}
    (spells : SpellsClause clause text) (opens : OpensFrom cs) :
    isTypeOnly (text ++ cs) = false := by
  cases spells with
  | @default name gap isName blank apart =>
      have ends := endsName_append_of_ne_nil blank apart cs
      rw [List.append_assoc]
      by_cases marked : name = "type".toList
      · obtain ⟨after, hfrom⟩ := opens
        have trimmed : trimStart (gap ++ cs) = cs :=
          trimStart_append_of_opensVisibly blank (OpensFrom.opensVisibly ⟨after, hfrom⟩)
        rw [marked, isTypeOnly, keyword?_type_append ends]
        simp [trimmed, hfrom]
      · exact isTypeOnly_of_keyword? (keyword?_eq_none_of_ne isName_type isName ends marked)
  | names spells =>
      exact isTypeOnly_of_keyword?
        (keyword?_eq_none_of_head? isName_type (spells.opensNames cs).head?_any)
  | @juxtaposed name gap text clause isName notType blank spells =>
      rw [List.append_assoc, List.append_assoc]
      exact isTypeOnly_of_keyword? (keyword?_eq_none_of_ne isName_type isName
        (endsName_append blank (spells.opensNames cs).endsName) notType)
  | @both name gap gap' text clause isName blank blank' spells =>
      have ends : EndsName (gap ++ ',' :: (gap' ++ (text ++ cs))) :=
        endsName_append blank (endsName_cons.2 divides_comma.1)
      simp only [List.append_assoc, List.cons_append]
      by_cases marked : name = "type".toList
      · have notStart : isIdentStart ',' = false := by decide
        rw [marked, isTypeOnly, keyword?_type_append ends]
        simp [divides_comma.trimStart_append blank, notStart]
      · exact isTypeOnly_of_keyword? (keyword?_eq_none_of_ne isName_type isName ends marked)

theorem exists_spellsClause {cs rest : List Char} {clause : Clause}
    (h : clause? cs = some (clause, rest)) (visible : OpensVisibly cs)
    (notTypes : isTypeOnly cs = false) (opens : OpensFrom (trimStart rest)) :
    ∃ text, cs = text ++ trimStart rest ∧ SpellsClause clause text := by
  rw [clause?_eq, Option.bind_eq_some_iff] at h
  obtain ⟨⟨defaultName, after⟩, hdefault, hnames⟩ := h
  dsimp only at hnames
  have split := exists_spellsNames hnames opens
  rcases defaultName?_cases hdefault with ⟨rfl, rfl, noName⟩ |
    ⟨name, gap, isName, blank, rfl, ⟨rfl, ends⟩ | ⟨gap', blank', rfl, names⟩⟩
  · rcases split with ⟨-, rfl, -, -⟩ | ⟨text, htext, spells, hnone⟩
    · -- Without any name the keyword would have been read as one.
      rw [trimStart_of_opensVisibly visible] at opens
      obtain ⟨more, rfl⟩ := opens.exists_cons
      exact absurd noName (by rw [List.head?_cons, Option.any_some]; decide)
    · obtain ⟨_, _, _⟩ := clause
      obtain rfl : _ = none := hnone
      exact ⟨text, htext, .names spells⟩
  · rcases split with ⟨rfl, rfl, -, -⟩ | ⟨text, htext, spells, hsome⟩
    · obtain ⟨last, blankLast, hlast⟩ := exists_gap_trimStart rest
      rw [hlast, ← List.append_assoc] at ends
      refine ⟨name ++ (gap ++ last), ?_, .default isName (isAllBlank_append blank blankLast)
        (opens.ne_nil_of_endsName ends)⟩
      rw [List.append_assoc, List.append_assoc, ← hlast]
    · have notType : name ≠ "type".toList := by
        rintro rfl
        have trimmed : trimStart (gap ++ after) = after := by
          rw [htext]
          exact trimStart_append_of_opensVisibly blank (spells.opensNames _).opensVisibly
        have noFrom : keyword? "from" after = none := by
          rw [htext]
          exact keyword?_eq_none_of_head? isName_from (spells.opensNames _).head?_any
        rw [isTypeOnly, keyword?_type_append ends] at notTypes
        have head := spells.opensNames (trimStart rest)
        rw [← htext] at head
        rcases head with head | head <;> simp [trimmed, noFrom, head] at notTypes
      obtain ⟨_, _, _⟩ := clause
      obtain rfl : _ = some name := hsome
      refine ⟨name ++ (gap ++ text), ?_, .juxtaposed isName notType blank spells⟩
      rw [htext, List.append_assoc, List.append_assoc]
  · rcases split with ⟨-, -, noStar, noBrace⟩ | ⟨text, htext, spells, hsome⟩
    · rcases names with h | h
      · exact absurd h noStar
      · exact absurd h noBrace
    · obtain ⟨_, _, _⟩ := clause
      obtain rfl : _ = some name := hsome
      refine ⟨name ++ (gap ++ ',' :: (gap' ++ text)), ?_, .both isName blank blank' spells⟩
      rw [htext]
      simp only [List.append_assoc, List.cons_append]

/-! ## Declarations -/

/-- The texts of a declaration up to its specifier. -/
inductive SpellsHead : Clause → List Char → List Char → Prop where
  | mk {clause : Clause} {gap text gap' specifier : List Char} (blank : isAllBlank gap = true)
      (apart : EndsName (gap ++ text)) (spells : SpellsClause clause text)
      (blank' : isAllBlank gap' = true) (quoted : Takes quoted? specifier) :
      SpellsHead clause specifier
        ("import".toList ++ (gap ++ (text ++ ("from".toList ++ (gap' ++ specifier)))))

namespace SpellsClause

variable {clause : Clause} {text : List Char}

theorem exists_cons (spells : SpellsClause clause text) :
    ∃ c more, text = c :: more ∧ (isIdentStart c = true ∨ c = '*' ∨ c = '\x7b') := by
  cases spells with
  | default isName =>
      obtain ⟨c, more, rfl, start, -⟩ := isName
      exact ⟨c, _, rfl, .inl start⟩
  | names spells =>
      cases spells with
      | whole => exact ⟨_, _, rfl, .inr (.inl rfl)⟩
      | group => exact ⟨_, _, rfl, .inr (.inr rfl)⟩
  | juxtaposed isName =>
      obtain ⟨c, more, rfl, start, -⟩ := isName
      exact ⟨c, _, rfl, .inl start⟩
  | both isName =>
      obtain ⟨c, more, rfl, start, -⟩ := isName
      exact ⟨c, _, rfl, .inl start⟩

/-- A clause opens neither with blanks nor like what else may follow the keyword. -/
theorem opens (spells : SpellsClause clause text) (cs : List Char) :
    OpensVisibly (text ++ cs) ∧ ((text ++ cs).head?.any fun c =>
      c == '(' || c == '.' || c == '\'' || c == '"') = false := by
  obtain ⟨c, more, rfl, start | rfl | rfl⟩ := spells.exists_cons
  · have name : IsName [c] := ⟨c, [], rfl, start, by simp⟩
    refine ⟨name.opensVisibly (more ++ cs), ?_⟩
    rw [List.cons_append, List.head?_cons, Option.any_some, ← Bool.not_eq_true]
    simp only [Bool.or_eq_true, beq_iff_eq]
    rintro (((rfl | rfl) | rfl) | rfl) <;> exact absurd start (by decide)
  · exact ⟨opensVisibly_cons.2 (by decide), rfl⟩
  · exact ⟨opensVisibly_cons.2 (by decide), rfl⟩

/-- Whether a clause after blanks ends the keyword before them does not depend on what
follows the clause. -/
theorem endsName_append_iff (spells : SpellsClause clause text) {gap : List Char}
    (cs : List Char) : EndsName (gap ++ (text ++ cs)) ↔ EndsName (gap ++ text) := by
  obtain ⟨c, more, rfl, -⟩ := spells.exists_cons
  cases gap <;> simp [EndsName]

end SpellsClause

theorem opensVisibly_of_takes {text : List Char} (takes : Takes quoted? text)
    (cs : List Char) : OpensVisibly (text ++ cs) :=
  IsExportName.opensVisibly (.inr takes) cs

theorem endsName_of_takes {text : List Char} (takes : Takes quoted? text) (cs : List Char) :
    EndsName (text ++ cs) := by
  obtain ⟨quote, more, rfl, rfl | rfl⟩ := exists_quote_of_takes takes <;>
    exact endsName_cons.2 (by decide)

/-- The clause and the specifier that a declaration opens with, and what follows them. -/
def headOf? (statement : List Char) : Option (Clause × List Char × List Char) := do
  let rest ← keyword? "import" statement
  let rest := trimStart rest
  if rest.head?.any fun c => c == '(' || c == '.' || c == '\'' || c == '"' then none
  else if isTypeOnly rest then none
  else do
    let (clause, rest) ← clause? rest
    let rest ← keyword? "from" (trimStart rest)
    let (specifier, rest) ← quoted? (trimStart rest)
    some (clause, specifier, rest)

/-- A declaration is its head, its attributes and the code after it. -/
theorem parse?_eq (statement : List Char) :
    parse? statement = (headOf? statement).bind fun (clause, specifier, rest) =>
      (attributes? rest).bind fun (attributes, rest) =>
        (tail? rest).bind fun tail =>
          if clause.bindsName then some ⟨clause, specifier, attributes, tail⟩ else none := by
  unfold parse? headOf?
  cases keyword? "import" statement with
  | none => rfl
  | some rest =>
      simp only [Option.bind_eq_bind, Option.bind_some, afterKeyword?]
      split
      · rfl
      · split
        · rfl
        · simp only [Option.bind_assoc, Option.bind_some]

theorem headOf?_eq_some_iff {statement rest specifier : List Char} {clause : Clause} :
    headOf? statement = some (clause, specifier, rest) ↔
      ∃ head, statement = head ++ rest ∧ SpellsHead clause specifier head := by
  constructor
  · intro h
    simp only [headOf?, Option.bind_eq_bind, Option.bind_eq_some_iff] at h
    obtain ⟨afterImport, hi, h⟩ := h
    obtain ⟨rfl, endsImport⟩ := keyword?_eq_some_iff.1 hi
    obtain ⟨gap, blank, hgap⟩ := exists_gap_trimStart afterImport
    split at h
    · cases h
    split at h
    · cases h
    rename_i notTypes
    simp only [Option.bind_eq_some_iff] at h
    obtain ⟨⟨clause, r1⟩, hc, r2, hf, ⟨specifier, r3⟩, hs, h⟩ := h
    cases h
    obtain ⟨text, htext, spells⟩ := exists_spellsClause hc
      (opensVisibly_trimStart _) (by simpa using notTypes) ⟨r2, hf⟩
    obtain ⟨hf, -⟩ := keyword?_eq_some_iff.1 hf
    obtain ⟨gap', blank', hgap'⟩ := exists_gap_trimStart r2
    obtain ⟨hs, quoted⟩ := quoted?_eq_some_iff.1 hs
    refine ⟨_, ?_, .mk blank ?_ spells blank' quoted⟩
    · rw [hgap, htext, hf, hgap', hs]
      simp only [List.append_assoc]
    · rw [hgap, htext] at endsImport
      exact (spells.endsName_append_iff _).1 endsImport
  · rintro ⟨head, rfl, spells⟩
    obtain @⟨gap, text, gap', specifier, blank, apart, spells, blank', quoted⟩ := spells
    have hfrom : keyword? "from" ("from".toList ++ (gap' ++ (specifier ++ rest))) =
        some (gap' ++ (specifier ++ rest)) :=
      keyword?_eq_some_iff.2 ⟨rfl, endsName_append blank' (endsName_of_takes quoted rest)⟩
    have trimmed' : trimStart (gap' ++ (specifier ++ rest)) = specifier ++ rest :=
      trimStart_append_of_opensVisibly blank' (opensVisibly_of_takes quoted rest)
    obtain ⟨afterClause, hclause, reached⟩ := exists_clause?_of_spells spells ⟨_, hfrom⟩
    have notTypes := isTypeOnly_of_spells spells ⟨_, hfrom⟩
    obtain ⟨visible, declares⟩ := spells.opens ("from".toList ++ (gap' ++ (specifier ++ rest)))
    have himport : keyword? "import" ("import".toList ++
        (gap ++ (text ++ ("from".toList ++ (gap' ++ (specifier ++ rest)))))) = some _ :=
      keyword?_eq_some_iff.2 ⟨rfl, (spells.endsName_append_iff _).2 apart⟩
    have trimmed : trimStart
        (gap ++ (text ++ ("from".toList ++ (gap' ++ (specifier ++ rest))))) = _ :=
      trimStart_append_of_opensVisibly blank visible
    simp only [List.append_assoc, headOf?, himport, Option.bind_eq_bind, Option.bind_some,
      trimmed, declares, notTypes, Bool.false_eq_true, if_false, hclause, reached, hfrom,
      trimmed', quoted rest]

theorem exists_spellsHead {statement : List Char} {declaration : Declaration}
    (h : parse? statement = some declaration) :
    ∃ head rest after, statement = head ++ rest ∧
      SpellsHead declaration.clause declaration.specifier head ∧
      attributes? rest = some (declaration.attributes, after) ∧
      tail? after = some declaration.tail ∧ declaration.clause.bindsName = true := by
  rw [parse?_eq] at h
  simp only [Option.bind_eq_some_iff] at h
  obtain ⟨⟨clause, specifier, rest⟩, hhead, ⟨attributes, after⟩, ha, tail, ht, h⟩ := h
  obtain ⟨head, whole, spells⟩ := headOf?_eq_some_iff.1 hhead
  split at h
  · rename_i binds
    obtain rfl := Option.some.inj h
    exact ⟨head, rest, after, whole, spells, ha, ht, binds⟩
  · cases h

theorem parse?_of_spellsHead {clause : Clause} {specifier head : List Char}
    (spells : SpellsHead clause specifier head) {rest attributes after tail : List Char}
    (hattributes : attributes? rest = some (attributes, after)) (htail : tail? after = some tail)
    (binds : clause.bindsName = true) :
    parse? (head ++ rest) = some ⟨clause, specifier, attributes, tail⟩ := by
  have hhead : headOf? (head ++ rest) = some (clause, specifier, rest) :=
    headOf?_eq_some_iff.2 ⟨head, rfl, spells⟩
  simp only [parse?_eq, hhead, Option.bind_some, hattributes, htail, if_pos binds]

/-- The declarations that are read are those of the grammar, with the attributes and
the code that follow them. -/
theorem parse?_eq_some_iff {statement : List Char} {declaration : Declaration} :
    parse? statement = some declaration ↔
      ∃ head rest after, statement = head ++ rest ∧
        SpellsHead declaration.clause declaration.specifier head ∧
        attributes? rest = some (declaration.attributes, after) ∧
        tail? after = some declaration.tail ∧ declaration.clause.bindsName = true := by
  constructor
  · exact exists_spellsHead
  · rintro ⟨head, rest, after, rfl, spells, hattributes, htail, binds⟩
    exact parse?_of_spellsHead spells hattributes htail binds

end ScriptConsole.Import

import ScriptConsole.Proofs.Import.Items
import ScriptConsole.Proofs.Import.Pieces

/-!
# The import declarations of the language

A declaration is `import`, a clause, `from` and a module in quotes, perhaps with
attributes, and then nothing or code that starts on a new line.  The reader takes what
this grammar has, and two things more: a default name before other names without a
comma, and a string that gets no name.  It refuses a group that renames a type, code
that begins with a keyword of attributes, and code whose line break it does not see.
-/

namespace ScriptConsole.Import

open Text

/-! ## Clauses -/

/-- The names that may stand alone or after a default name, with the blanks after them. -/
inductive LegalNames : Clause → List Item → List Char → Prop where
  | whole {gap gap' name gap'' : List Char} (blank : isAllBlank gap = true)
      (blank' : isAllBlank gap' = true) (apart' : gap' ≠ []) (isName : IsName name)
      (blank'' : isAllBlank gap'' = true) (apart'' : gap'' ≠ []) :
      LegalNames ⟨none, some name, []⟩ []
        ('*' :: (gap ++ ("as".toList ++ (gap' ++ (name ++ gap'')))))
  | group {text gap : List Char} {items : List Item} (spells : SpellsItems items text)
      (blank : isAllBlank gap = true) :
      LegalNames ⟨none, none, items.filterMap Item.value?⟩ items ('\x7b' :: (text ++ gap))

/-- The texts of a clause, with the blanks after it: a default name, other names, or
both with a comma between them. -/
inductive LegalClause : Clause → List Item → List Char → Prop where
  | default {name gap : List Char} (isName : IsName name) (blank : isAllBlank gap = true)
      (apart : gap ≠ []) : LegalClause ⟨some name, none, []⟩ [] (name ++ gap)
  | names {clause : Clause} {items : List Item} {text : List Char}
      (legal : LegalNames clause items text) : LegalClause clause items text
  | both {name gap gap' text : List Char} {clause : Clause} {items : List Item}
      (isName : IsName name) (blank : isAllBlank gap = true) (blank' : isAllBlank gap' = true)
      (legal : LegalNames clause items text) :
      LegalClause { clause with defaultName := some name } items
        (name ++ (gap ++ ',' :: (gap' ++ text)))

namespace LegalNames

variable {clause : Clause} {items : List Item} {text : List Char}

theorem spellsNames (legal : LegalNames clause items text)
    (plain : ∀ item ∈ items, item.renamesType = false) : SpellsNames clause text := by
  cases legal with
  | whole blank blank' apart' isName blank'' apart'' =>
      exact .whole blank blank' apart' isName blank'' apart''
  | group spells blank => exact .group (spells.spellsGroup plain) blank

theorem entries_eq (legal : LegalNames clause items text) :
    clause.entries = items.filterMap Item.value? := by
  cases legal <;> rfl

theorem bindsNames (legal : LegalNames clause items text) : BindsNames clause.entries := by
  cases legal with
  | whole => exact List.forall_mem_nil _
  | group spells => exact spells.bindsNames

theorem opensNames (legal : LegalNames clause items text) (cs : List Char) :
    OpensNames (text ++ cs) := by
  cases legal with
  | whole => exact .inl rfl
  | group => exact .inr rfl

/-- A group that renames a type is refused after any default name. -/
theorem namesAfter?_eq_none (legal : LegalNames clause items text)
    (renames : ∃ item ∈ items, item.renamesType = true) (defaultName : Option (List Char))
    (cs : List Char) : namesAfter? defaultName (text ++ cs) = none := by
  cases legal with
  | whole =>
      obtain ⟨item, mem, -⟩ := renames
      cases mem
  | group spells blank =>
      simp only [List.cons_append, List.append_assoc, namesAfter?, Option.bind_eq_bind,
        spells.entries?_eq_none renames, Option.bind_none]

end LegalNames

theorem exists_legalNames {clause : Clause} {text : List Char} (spells : SpellsNames clause text)
    (binds : BindsNames clause.entries) :
    ∃ items, (∀ item ∈ items, item.renamesType = false) ∧ LegalNames clause items text := by
  cases spells with
  | whole blank blank' apart' isName blank'' apart'' =>
      exact ⟨[], List.forall_mem_nil _, .whole blank blank' apart' isName blank'' apart''⟩
  | group spells blank =>
      obtain ⟨items, rfl, plain, spells⟩ := exists_spellsItems spells binds
      exact ⟨items, plain, .group spells blank⟩

namespace LegalClause

variable {clause : Clause} {items : List Item} {text : List Char}

theorem spellsClause (legal : LegalClause clause items text)
    (plain : ∀ item ∈ items, item.renamesType = false) : SpellsClause clause text := by
  cases legal with
  | default isName blank apart => exact .default isName blank apart
  | names legal => exact .names (legal.spellsNames plain)
  | both isName blank blank' legal => exact .both isName blank blank' (legal.spellsNames plain)

theorem entries_eq (legal : LegalClause clause items text) :
    clause.entries = items.filterMap Item.value? := by
  cases legal with
  | default => rfl
  | names legal => exact legal.entries_eq
  | both isName blank blank' legal => exact legal.entries_eq

theorem bindsNames (legal : LegalClause clause items text) : BindsNames clause.entries := by
  cases legal with
  | default => exact List.forall_mem_nil _
  | names legal => exact legal.bindsNames
  | both isName blank blank' legal => exact legal.bindsNames

theorem clause?_eq_none (legal : LegalClause clause items text)
    (renames : ∃ item ∈ items, item.renamesType = true) (cs : List Char) :
    clause? (text ++ cs) = none := by
  rw [clause?_eq]
  cases legal with
  | default =>
      obtain ⟨item, mem, -⟩ := renames
      cases mem
  | names legal =>
      rw [defaultName?_of_head? (legal.opensNames cs).head?_any, Option.bind_some]
      exact legal.namesAfter?_eq_none renames none cs
  | @both name gap gap' text clause items isName blank blank' legal =>
      simp only [List.append_assoc, List.cons_append]
      rw [defaultName?_of_comma isName blank blank' (legal.opensNames cs), Option.bind_some]
      exact legal.namesAfter?_eq_none renames (some name) cs

theorem ne_nil (legal : LegalClause clause items text) : text ≠ [] := by
  cases legal with
  | default isName => exact List.append_ne_nil_of_left_ne_nil isName.ne_nil _
  | names legal => cases legal <;> exact List.cons_ne_nil _ _
  | both isName => exact List.append_ne_nil_of_left_ne_nil isName.ne_nil _

theorem opensVisibly (legal : LegalClause clause items text) (cs : List Char) :
    OpensVisibly (text ++ cs) := by
  cases legal with
  | default isName =>
      rw [List.append_assoc]
      exact isName.opensVisibly _
  | names legal => exact (legal.opensNames cs).opensVisibly
  | both isName =>
      rw [List.append_assoc]
      exact isName.opensVisibly _

end LegalClause

/-! ## The comma after a default name -/

/-- Whether a default name stands before other names without a comma. -/
def OmitsComma (statement : List Char) : Prop :=
  ∃ gap name gap' rest, statement = "import".toList ++ (gap ++ (name ++ (gap' ++ rest))) ∧
    isAllBlank gap = true ∧ IsName name ∧ isAllBlank gap' = true ∧ OpensNames rest

theorem eq_of_append_eq {gap gap' cs cs' : List Char} (blank : isAllBlank gap = true)
    (blank' : isAllBlank gap' = true) (opens : OpensVisibly cs) (opens' : OpensVisibly cs')
    (same : gap ++ cs = gap' ++ cs') : cs = cs' := by
  rw [← trimStart_append_of_opensVisibly blank opens, same,
    trimStart_append_of_opensVisibly blank' opens']

/-- After a name the names that follow it are told by their first visible character. -/
theorem opensNames_of_append_eq {name name' gap gap' cs cs' : List Char} (isName : IsName name)
    (isName' : IsName name') (blank : isAllBlank gap = true) (blank' : isAllBlank gap' = true)
    (ends : EndsName (gap ++ cs)) (opens : OpensVisibly cs) (names : OpensNames cs')
    (same : name ++ (gap ++ cs) = name' ++ (gap' ++ cs')) : OpensNames cs := by
  have gaps := (isName.append_inj isName' ends (endsName_append blank' names.endsName) same).2
  rw [eq_of_append_eq blank blank' opens names.opensVisibly gaps]
  exact names

theorem LegalClause.not_omitsComma {clause : Clause} {items : List Item} {gap text cs : List Char}
    (legal : LegalClause clause items text) (blank : isAllBlank gap = true)
    (opens : OpensFrom cs) : ¬OmitsComma ("import".toList ++ (gap ++ (text ++ cs))) := by
  rintro ⟨gap', name, gap'', rest, whole, blank', isName, blank'', names⟩
  have same := eq_of_append_eq blank blank' (legal.opensVisibly cs) (isName.opensVisibly _)
    (List.append_cancel_left whole)
  -- If the clause opens with a name, that is the name without a comma, and `from` or the
  -- comma stands where other names would have to.
  cases legal with
  | @default name' gapAfter isName' blankAfter apart =>
      rw [List.append_assoc] at same
      have absurdNames := opensNames_of_append_eq isName' isName blankAfter blank''
        (endsName_append_of_ne_nil blankAfter apart cs) opens.opensVisibly names same
      obtain ⟨more, rfl⟩ := opens.exists_cons
      exact absurdNames.head?_ne (by decide) List.head?_cons
  | names legal =>
      have start := isName.head?_any (gap'' ++ rest)
      rw [← same, (legal.opensNames cs).head?_any] at start
      cases start
  | @both name' gapAfter gapAfter' text clause items isName' blankAfter blankAfter' legal =>
      simp only [List.append_assoc, List.cons_append] at same
      have comma : OpensVisibly (',' :: (gapAfter' ++ (text ++ cs))) :=
        opensVisibly_cons.2 divides_comma.2
      have absurdNames := opensNames_of_append_eq isName' isName blankAfter blank''
        (endsName_append blankAfter (endsName_cons.2 divides_comma.1)) comma names same
      exact absurdNames.head?_ne (by decide) List.head?_cons

/-- A clause that is read is one of the grammar if it has its comma and every string of it
is bound under another name. -/
theorem exists_legalClause {clause : Clause} {gap text cs : List Char}
    (spells : SpellsClause clause text) (blank : isAllBlank gap = true)
    (comma : ¬OmitsComma ("import".toList ++ (gap ++ (text ++ cs))))
    (binds : BindsNames clause.entries) :
    ∃ items, (∀ item ∈ items, item.renamesType = false) ∧ LegalClause clause items text := by
  cases spells with
  | default isName blank apart =>
      exact ⟨[], List.forall_mem_nil _, .default isName blank apart⟩
  | names spells =>
      obtain ⟨items, plain, legal⟩ := exists_legalNames spells binds
      exact ⟨items, plain, .names legal⟩
  | @juxtaposed name gap' text clause isName notType blank' spells =>
      refine absurd ⟨gap, name, gap', text ++ cs, ?_, blank, isName, blank', ?_⟩ comma
      · simp only [List.append_assoc]
      · exact spells.opensNames cs
  | both isName blank blank' spells =>
      obtain ⟨items, plain, legal⟩ := exists_legalNames spells binds
      exact ⟨items, plain, .both isName blank blank' legal⟩

/-! ## Attributes and the code after a declaration -/

/-- The texts of attributes, with the blanks before them. -/
inductive LegalAttributes : List Char → Prop where
  | none : LegalAttributes []
  | group {gap gap' group : List Char} {word : String} (isWord : word = "with" ∨ word = "assert")
      (blank : isAllBlank gap = true) (blank' : isAllBlank gap' = true) (isGroup : IsGroup group) :
      LegalAttributes (gap ++ (word.toList ++ (gap' ++ group)))

theorem legalAttributes_iff {attributes : List Char} :
    LegalAttributes attributes ↔ attributes = [] ∨ SpellsAttributes attributes := by
  constructor
  · intro legal
    cases legal with
    | none => exact .inl rfl
    | group isWord blank blank' isGroup =>
        exact .inr (.mk isWord blank blank' (takes_braced_iff.2 isGroup))
  · rintro (rfl | ⟨isWord, blank, blank', braced⟩)
    · exact .none
    · exact .group isWord blank blank' (takes_braced_iff.1 braced)

/-- Code that starts on a new line. -/
def StartsLine (cs : List Char) : Prop :=
  ∃ gap c more, cs = gap ++ c :: more ∧ isAllBlank gap = true ∧ isLineBreak c = true

/-- Code with nothing but spaces and tabs before a line feed or a carriage return. -/
def StartsLineAtOnce (cs : List Char) : Prop :=
  ∃ gap c more, cs = gap ++ c :: more ∧ (∀ d ∈ gap, d = ' ' ∨ d = '\t') ∧ (c = '\n' ∨ c = '\r')

theorem StartsLineAtOnce.startsLine {cs : List Char} (starts : StartsLineAtOnce cs) :
    StartsLine cs := by
  obtain ⟨gap, c, more, rfl, spaces, breaks⟩ := starts
  refine ⟨gap, c, more, rfl, List.all_eq_true.2 fun d mem => ?_, ?_⟩
  · rcases spaces d mem with rfl | rfl <;> rfl
  · rcases breaks with rfl | rfl <;> rfl

/-- The code after a declaration is seen if and only if its line starts at once. -/
theorem tail?_eq_some_iff {cs tail : List Char} (closes : OpensVisibly cs.reverse) :
    tail? cs = some tail ↔ tail = cs ∧ (cs ≠ [] → StartsLineAtOnce cs) := by
  by_cases none : cs = []
  · subst none
    constructor
    · intro h
      exact ⟨(Option.some.inj h).symm, absurd rfl⟩
    · rintro ⟨rfl, -⟩
      rfl
  have visible : isAllBlank cs = false := by
    rw [← List.reverse_reverse cs, isAllBlank, List.all_reverse]
    exact closes.isAllBlank_eq_false (List.reverse_ne_nil_iff.2 none)
  have spaces : ∀ d : Char, (d == ' ' || d == '\t') = true ↔ d = ' ' ∨ d = '\t' := by simp
  rw [tail?, visible, trimEnd_eq_self_iff.2 closes]
  constructor
  · intro h
    have cut := List.takeWhile_append_dropWhile (p := fun c => c == ' ' || c == '\t') (l := cs)
    have before : ∀ d ∈ cs.takeWhile fun c => c == ' ' || c == '\t', d = ' ' ∨ d = '\t' :=
      fun d mem => (spaces d).1 (List.mem_takeWhile_imp (p := fun c => c == ' ' || c == '\t') mem)
    simp only [Bool.false_eq_true, if_false] at h
    split at h
    · rename_i head
      obtain ⟨more, hmore⟩ := List.head?_eq_some_iff.1 head
      exact ⟨(Option.some.inj h).symm, fun _ =>
        ⟨_, _, more, (hmore ▸ cut).symm, before, .inl rfl⟩⟩
    · rename_i head
      obtain ⟨more, hmore⟩ := List.head?_eq_some_iff.1 head
      exact ⟨(Option.some.inj h).symm, fun _ =>
        ⟨_, _, more, (hmore ▸ cut).symm, before, .inr rfl⟩⟩
    · cases h
  · rintro ⟨rfl, starts⟩
    obtain ⟨gap, c, more, rfl, before, breaks⟩ := starts none
    have dropped : ∀ cs, (gap ++ cs).dropWhile (fun c => c == ' ' || c == '\t') =
        cs.dropWhile fun c => c == ' ' || c == '\t' := fun cs =>
      List.dropWhile_append_of_pos fun d mem => (spaces d).2 (before d mem)
    rw [dropped]
    rcases breaks with rfl | rfl <;> rfl

/-- The attributes of a declaration are read unless it has none and its code opens with
their keyword. -/
theorem attributes?_eq_iff {attributes tail : List Char} (legal : LegalAttributes attributes) :
    attributes? (attributes ++ tail) = some (attributes, tail) ↔
      (attributes = [] → marksAttributes tail = false) := by
  rcases legalAttributes_iff.1 legal with rfl | spells
  · constructor
    · intro h _
      obtain ⟨-, ⟨-, unmarked⟩ | spells⟩ := attributes?_cases h
      · exact unmarked
      · exact absurd rfl spells.ne_nil
    · intro unmarked
      exact attributes?_of_not_marks (unmarked rfl)
  · exact iff_of_true (attributes?_of_spells spells tail) fun none => absurd none spells.ne_nil

/-- Whether attributes and the code after them are seen as they are: no keyword of
attributes opens the code, and its line starts at once. -/
def SeesTail (attributes tail : List Char) : Prop :=
  (attributes = [] → marksAttributes tail = false) ∧ (tail ≠ [] → StartsLineAtOnce tail)

/-- What follows a module is seen if and only if it is read. -/
theorem seesTail_iff {attributes tail : List Char} (legal : LegalAttributes attributes)
    (closes : OpensVisibly tail.reverse) :
    SeesTail attributes tail ↔
      attributes? (attributes ++ tail) = some (attributes, tail) ∧ tail? tail = some tail := by
  rw [attributes?_eq_iff legal, tail?_eq_some_iff closes, eq_self, true_and]
  rfl

/-- What is read after a module are attributes of the grammar and code that is seen. -/
theorem seesTail_of_read {rest attributes after tail : List Char}
    (hattributes : attributes? rest = some (attributes, after)) (htail : tail? after = some tail)
    (closes : OpensVisibly rest.reverse) :
    rest = attributes ++ tail ∧ LegalAttributes attributes ∧ SeesTail attributes tail := by
  obtain ⟨rfl, attributed⟩ := attributes?_cases hattributes
  rw [List.reverse_append] at closes
  obtain ⟨rfl, -⟩ := (tail?_eq_some_iff closes.of_append).1 htail
  have legal := legalAttributes_iff.2 (attributed.imp_left (·.1))
  exact ⟨rfl, legal, (seesTail_iff legal closes.of_append).2 ⟨hattributes, htail⟩⟩

/-! ## Declarations -/

/-- The texts of a declaration up to the end of its module. -/
inductive LegalHead : Clause → List Item → List Char → List Char → Prop where
  | mk {clause : Clause} {items : List Item} {gap text gap' specifier : List Char}
      (blank : isAllBlank gap = true) (apart : EndsName (gap ++ text))
      (legal : LegalClause clause items text) (blank' : isAllBlank gap' = true)
      (quoted : IsQuoted specifier) :
      LegalHead clause items specifier
        ("import".toList ++ (gap ++ (text ++ ("from".toList ++ (gap' ++ specifier)))))

/-- The statements that are import declarations, with the entries of their groups. -/
inductive IsImport : List Char → List Item → Declaration → Prop where
  | mk {clause : Clause} {items : List Item} {specifier head attributes tail : List Char}
      (legal : LegalHead clause items specifier head) (attributed : LegalAttributes attributes)
      (follows : tail = [] ∨ StartsLine tail) (binds : clause.bindsName = true) :
      IsImport (head ++ (attributes ++ tail)) items ⟨clause, specifier, attributes, tail⟩

namespace LegalHead

variable {clause : Clause} {items : List Item} {specifier head : List Char}

theorem spellsHead (legal : LegalHead clause items specifier head)
    (plain : ∀ item ∈ items, item.renamesType = false) : SpellsHead clause specifier head := by
  obtain ⟨blank, apart, legal, blank', quoted⟩ := legal
  exact .mk blank apart (legal.spellsClause plain) blank' (takes_quoted_iff.2 quoted)

theorem headOf?_eq (legal : LegalHead clause items specifier head)
    (plain : ∀ item ∈ items, item.renamesType = false) (after : List Char) :
    headOf? (head ++ after) = some (clause, specifier, after) :=
  headOf?_eq_some_iff.2 ⟨head, rfl, legal.spellsHead plain⟩

theorem headOf?_eq_none (legal : LegalHead clause items specifier head)
    (renames : ∃ item ∈ items, item.renamesType = true) (after : List Char) :
    headOf? (head ++ after) = none := by
  obtain @⟨gap, text, gap', specifier, blank, -, legal, -⟩ := legal
  refine Option.eq_none_iff_forall_ne_some.2 fun parts h => ?_
  simp only [headOf?, List.append_assoc, Option.bind_eq_bind, Option.bind_eq_some_iff] at h
  obtain ⟨rest, hi, h⟩ := h
  obtain rfl := List.append_cancel_left (keyword?_eq_some_iff.1 hi).1
  rw [trimStart_append_of_opensVisibly blank (legal.opensVisibly _)] at h
  split at h
  · cases h
  split at h
  · cases h
  rw [legal.clause?_eq_none renames] at h
  simp at h

theorem parse?_eq_none (legal : LegalHead clause items specifier head)
    (renames : ¬∀ item ∈ items, item.renamesType = false) (after : List Char) :
    parse? (head ++ after) = none := by
  rw [parse?_eq, legal.headOf?_eq_none (by simpa using renames)]
  rfl

/-- A head is read with what follows it if and only if its group renames no type and what
follows is seen. -/
theorem parse?_eq_some_iff (legal : LegalHead clause items specifier head)
    {attributes tail : List Char} (attributed : LegalAttributes attributes)
    (closes : OpensVisibly tail.reverse) (binds : clause.bindsName = true) :
    parse? (head ++ (attributes ++ tail)) = some ⟨clause, specifier, attributes, tail⟩ ↔
      (∀ item ∈ items, item.renamesType = false) ∧ SeesTail attributes tail := by
  by_cases plain : ∀ item ∈ items, item.renamesType = false
  · rw [parse?_eq, legal.headOf?_eq plain, Option.bind_some, and_iff_right plain,
      seesTail_iff attributed closes]
    dsimp only
    constructor
    · intro h
      simp only [Option.bind_eq_some_iff] at h
      obtain ⟨⟨attributes', rest⟩, ha, tail', ht, h⟩ := h
      rw [if_pos binds, Option.some.injEq, Declaration.mk.injEq] at h
      obtain ⟨-, -, rfl, rfl⟩ := h
      obtain rfl := List.append_cancel_left (attributes?_cases ha).1
      exact ⟨ha, ht⟩
    · rintro ⟨ha, ht⟩
      rw [ha, Option.bind_some, ht, Option.bind_some, if_pos binds]
  · refine iff_of_false (fun h => ?_) fun h => plain h.1
    rw [legal.parse?_eq_none plain] at h
    cases h

theorem entries_eq (legal : LegalHead clause items specifier head) :
    clause.entries = items.filterMap Item.value? := by
  obtain ⟨-, -, legal, -⟩ := legal
  exact legal.entries_eq

theorem bindsNames (legal : LegalHead clause items specifier head) :
    BindsNames clause.entries := by
  obtain ⟨-, -, legal, -⟩ := legal
  exact legal.bindsNames

theorem not_omitsComma (legal : LegalHead clause items specifier head) (after : List Char) :
    ¬OmitsComma (head ++ after) := by
  obtain ⟨blank, -, legal, blank', quoted⟩ := legal
  have ends := endsName_append blank' (endsName_of_takes (takes_quoted_iff.2 quoted) after)
  simpa only [List.append_assoc] using
    legal.not_omitsComma blank ⟨_, keyword?_eq_some_iff.2 ⟨rfl, ends⟩⟩

end LegalHead

namespace IsImport

variable {statement : List Char} {items : List Item} {declaration : Declaration}

/-- A declaration of the language is read if and only if its group renames no type and
what follows its module is seen. -/
theorem parse?_eq_some_iff (legal : IsImport statement items declaration)
    (trimmed : trim statement = statement) :
    parse? statement = some declaration ↔
      (∀ item ∈ items, item.renamesType = false) ∧
        SeesTail declaration.attributes declaration.tail := by
  have closes := trimEnd_eq_self_iff.1 (trimEnd_of_trim trimmed)
  obtain ⟨legal, attributed, -, binds⟩ := legal
  simp only [List.reverse_append, List.append_assoc] at closes
  exact legal.parse?_eq_some_iff attributed closes.of_append binds

/-- What is read of a declaration of the language has its commas and its names. -/
theorem not_omitsComma (legal : IsImport statement items declaration) {other : Declaration}
    (parsed : parse? statement = some other) :
    ¬OmitsComma statement ∧ BindsNames other.clause.entries := by
  obtain ⟨legal, -, -, -⟩ := legal
  have plain : ∀ item ∈ items, item.renamesType = false := by
    by_contra renames
    rw [legal.parse?_eq_none renames] at parsed
    cases parsed
  obtain ⟨head, rest, after, whole, spells, -⟩ := exists_spellsHead parsed
  have same := headOf?_eq_some_iff.2 ⟨head, whole, spells⟩
  rw [legal.headOf?_eq plain, Option.some.injEq, Prod.mk.injEq] at same
  rw [← same.1]
  exact ⟨legal.not_omitsComma _, legal.bindsNames⟩

/-- The names of a declaration are bound in the order of its clause. -/
theorem map_localName_bindings (legal : IsImport statement items declaration) :
    declaration.bindings.map Binding.localName =
      declaration.clause.defaultName.toList ++ declaration.clause.moduleName.toList ++
        (items.filterMap Item.value?).map Entry.localName := by
  have entries : declaration.clause.entries = items.filterMap Item.value? := by
    obtain ⟨legal, -, -, -⟩ := legal
    exact legal.entries_eq
  rw [← entries, Declaration.bindings]
  cases declaration.clause.defaultName <;> cases declaration.clause.moduleName <;> simp

end IsImport

/-- What is read is a declaration of the language if it has its comma and its names. -/
theorem exists_isImport {statement : List Char} {declaration : Declaration}
    (parsed : parse? statement = some declaration) (trimmed : trim statement = statement)
    (comma : ¬OmitsComma statement) (binds : BindsNames declaration.clause.entries) :
    ∃ items, IsImport statement items declaration := by
  obtain ⟨head, rest, after, whole, spells, hattributes, htail, bindsName⟩ :=
    exists_spellsHead parsed
  obtain ⟨clause, specifier, attributes, tail⟩ := declaration
  have closes := trimEnd_eq_self_iff.1 (trimEnd_of_trim trimmed)
  rw [whole, List.reverse_append] at closes
  obtain ⟨rfl, attributed, sees⟩ := seesTail_of_read hattributes htail closes.of_append
  have follows : tail = [] ∨ StartsLine tail :=
    Classical.or_iff_not_imp_left.2 fun some => (sees.2 some).startsLine
  obtain @⟨gap, text, gap', specifier, blank, apart, spells, blank', quoted⟩ := spells
  subst whole
  simp only [List.append_assoc] at comma
  obtain ⟨items, -, legal⟩ := exists_legalClause spells blank comma binds
  exact ⟨items, .mk (.mk blank apart legal blank' (takes_quoted_iff.1 quoted)) attributed follows
    bindsName⟩

/-! ## Statements -/

theorem rewrite_of_parse?_eq_none {statement : List Char} (trimmed : trim statement = statement)
    (free : ';' ∉ statement) (refused : parse? statement = none) :
    rewrite statement = statement ∧ bindings statement = [] := by
  have kept : segments statement = [.code statement] := by
    rw [segments_of_not_mem trimmed free, pieceSegments, trimmed, refused]
  rw [rewrite, bindings, kept]
  exact ⟨List.append_nil _, rfl⟩

/-- A declaration of the language is read as it is written, its names in the order of its
clause, unless its group renames a type or what follows its module is not seen.  What is
read is a declaration of the language unless a comma is left out or a string gets no
name.  Every other statement is kept. -/
theorem parse?_isImport_iff {statement : List Char} (trimmed : trim statement = statement)
    (free : ';' ∉ statement) :
    (∀ items declaration, IsImport statement items declaration →
      (parse? statement = some declaration ↔
        (∀ item ∈ items, item.renamesType = false) ∧
          SeesTail declaration.attributes declaration.tail) ∧
      declaration.bindings.map Binding.localName =
        declaration.clause.defaultName.toList ++ declaration.clause.moduleName.toList ++
          (items.filterMap Item.value?).map Entry.localName) ∧
    (∀ declaration, parse? statement = some declaration →
      ((∃ items, IsImport statement items declaration) ↔
        ¬OmitsComma statement ∧ BindsNames declaration.clause.entries) ∧
      bindings statement = declaration.bindings ++ bindings (trimStart declaration.tail)) ∧
    (parse? statement = none → rewrite statement = statement ∧ bindings statement = []) := by
  refine ⟨fun items declaration legal => ?_, fun declaration parsed => ⟨⟨?_, ?_⟩, ?_⟩, ?_⟩
  · exact ⟨legal.parse?_eq_some_iff trimmed, legal.map_localName_bindings⟩
  · rintro ⟨items, legal⟩
    exact legal.not_omitsComma parsed
  · rintro ⟨comma, binds⟩
    exact exists_isImport parsed trimmed comma binds
  · exact bindings_of_parse? parsed free
  · exact rewrite_of_parse?_eq_none trimmed free

/-- A group with a type, a string and a comma at its end, before code on a new line. -/
theorem parse?_isImport_iff_group :
    let statement := "import d, \x7btype T, 'a-b' as b,\x7d from 'm' with \x7b\x7d\nf()".toList
    let declaration : Declaration :=
      ⟨⟨some "d".toList, none, [⟨"'a-b'".toList, some "b".toList⟩]⟩, "'m'".toList,
        " with \x7b\x7d".toList, "\nf()".toList⟩
    (trim statement = statement ∧ ';' ∉ statement) ∧ parse? statement = some declaration ∧
      ¬OmitsComma statement ∧
      bindings statement = declaration.bindings ++ bindings (trimStart declaration.tail) := by
  intro statement declaration
  have trimmed : trim statement = statement := rfl
  have free : ';' ∉ statement := by decide
  have space : isAllBlank [' '] = true := rfl
  have noBlank : isAllBlank [] = true := rfl
  have apart : [' '] ≠ [] := List.cons_ne_nil _ _
  have named : ∀ name ∈ ["d", "T", "b"], IsName name.toList := by
    intro name mem
    simp only [List.mem_cons, List.not_mem_nil, or_false] at mem
    rcases mem with rfl | rfl | rfl <;> exact isName_of_all (by simp) (by decide)
  have type : SpellsItem (.type "T".toList none) "type T".toList :=
    .type space apart (named "T" (by simp)) (by decide)
  have quoted : IsQuoted "'a-b'".toList := takes_quoted_iff.1 fun _ => rfl
  have string : SpellsItem (.value ⟨"'a-b'".toList, some "b".toList⟩) "'a-b' as b".toList :=
    .renamed (.inr quoted) space (fun _ => apart) space apart (named "b" (by simp))
  have group : SpellsItems [.type "T".toList none, .value ⟨"'a-b'".toList, some "b".toList⟩]
      "type T, 'a-b' as b,\x7d".toList :=
    .more noBlank type noBlank (.more space string noBlank (.close noBlank))
  have clause := LegalClause.both (named "d" (by simp)) noBlank space (.group group space)
  have endsImport : EndsName ([' '] ++ "d, \x7btype T, 'a-b' as b,\x7d ".toList) :=
    endsName_cons.2 (by decide)
  have attributes : LegalAttributes " with \x7b\x7d".toList :=
    .group (.inl rfl) space space (.mk .nil)
  have follows : StartsLine "\nf()".toList := ⟨[], '\n', "f()".toList, rfl, rfl, rfl⟩
  have specifier : IsQuoted "'m'".toList := takes_quoted_iff.1 fun _ => rfl
  have legal : IsImport statement _ declaration :=
    .mk (.mk space endsImport clause space specifier) attributes (.inr follows) rfl
  have sees : SeesTail declaration.attributes declaration.tail :=
    ⟨fun none => absurd none (by decide), fun _ => ⟨[], '\n', "f()".toList, rfl, by simp, .inl rfl⟩⟩
  obtain ⟨reads, accepts, -⟩ := parse?_isImport_iff trimmed free
  have parsed : parse? statement = some declaration :=
    (reads _ _ legal).1.2 ⟨by decide, sees⟩
  obtain ⟨grammar, bound⟩ := accepts declaration parsed
  exact ⟨⟨trimmed, free⟩, parsed, (grammar.1 ⟨_, legal⟩).1, bound⟩

/-- A default name before a group is read without a comma between them. -/
theorem parse?_juxtaposed :
    let statement := "import a \x7bb\x7d from 'm'".toList
    (trim statement = statement ∧ ';' ∉ statement) ∧
      (∃ declaration, parse? statement = some declaration) ∧
      ¬∃ items declaration, IsImport statement items declaration := by
  intro statement
  have space : isAllBlank [' '] = true := rfl
  have noBlank : isAllBlank [] = true := rfl
  have a : IsName "a".toList := isName_of_all (by simp) (by decide)
  have b : IsName "b".toList := isName_of_all (by simp) (by decide)
  have group : SpellsGroup [⟨"b".toList, none⟩] "b\x7d".toList :=
    .last noBlank (.plain (.inl b)) noBlank
  have endsImport : EndsName ([' '] ++ "a \x7bb\x7d ".toList) := endsName_cons.2 (by decide)
  have head := SpellsHead.mk space endsImport
    (.juxtaposed a (by decide) space (.group group space)) space fun _ => (rfl : quoted?
      ("'m'".toList ++ _) = _)
  have parsed : parse? statement = some _ := parse?_of_spellsHead head rfl rfl rfl
  have omits : OmitsComma statement :=
    ⟨[' '], "a".toList, [' '], "\x7bb\x7d from 'm'".toList, rfl, space, a, space, .inr rfl⟩
  refine ⟨⟨rfl, by decide⟩, ⟨_, parsed⟩, ?_⟩
  rintro ⟨items, declaration, legal⟩
  exact (legal.not_omitsComma parsed).1 omits

end ScriptConsole.Import

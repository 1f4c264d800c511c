import ScriptConsole.Proofs.Import.Pieces

/-!
# What a rewritten import binds

A rewritten declaration is a declaration again.  It imports the same exports of
the same module in the same order, under generated names, and each local name is
declared after it with what its generated name is bound to.
-/

namespace ScriptConsole.Import

open Text

def BindingKind.under (name : List Char) : BindingKind → BindingKind
  | .named exported _ => .named exported (some name)
  | kind => kind

namespace Binding

/-- The binding of the generated name to the export of the local one. -/
def renamed (binding : Binding) : Binding :=
  ⟨binding.generated, binding.specifier, binding.kind.under binding.generated⟩

end Binding

def Entry.renamed (entry : Entry) : Entry :=
  ⟨entry.exported, some (generatedName entry.localName)⟩

def Clause.renamed (clause : Clause) : Clause :=
  ⟨clause.defaultName.map generatedName, clause.moduleName.map generatedName,
    clause.entries.map Entry.renamed⟩

/-- A declaration under its generated names, without the code after it. -/
def Declaration.renamed (declaration : Declaration) : Declaration :=
  { declaration with clause := declaration.clause.renamed, tail := [] }

theorem Declaration.bindings_renamed (declaration : Declaration) :
    declaration.renamed.bindings = declaration.bindings.map Binding.renamed := by
  obtain ⟨⟨defaultName, moduleName, entries⟩, specifier, attributes, tail⟩ := declaration
  cases defaultName <;> cases moduleName <;>
    simp [bindings, renamed, Clause.renamed, Binding.renamed, Binding.generated,
      BindingKind.under, Entry.renamed, Entry.localName]

theorem Clause.bindsName_renamed (clause : Clause) :
    clause.renamed.bindsName = clause.bindsName := by
  obtain ⟨defaultName, moduleName, entries⟩ := clause
  simp [bindsName, renamed]

theorem isName_generatedName {name : List Char} (isName : IsName name) :
    IsName (generatedName name) := by
  have opening : IsName "repl_".toList :=
    ⟨'r', "epl_".toList, rfl, rfl, forall_mem_of_all (by decide)⟩
  exact opening.append isName.all_isIdentContinue

/-! ## Clauses under generated names -/

/-- What the grammar says of the names of an entry. -/
structure Entry.WellNamed (entry : Entry) : Prop where
  exports : IsExportName entry.exported
  rename : ∀ name ∈ entry.rename, IsName name

/-- What the grammar says of the names of a clause. -/
structure Clause.WellNamed (clause : Clause) : Prop where
  defaultName : ∀ name ∈ clause.defaultName, IsName name
  moduleName : ∀ name ∈ clause.moduleName, IsName name
  entries : ∀ entry ∈ clause.entries, entry.WellNamed
  apart : clause.moduleName = none ∨ clause.entries = []

theorem SpellsEntry.wellNamed {entry : Entry} {text : List Char}
    (spells : SpellsEntry (some entry) text) : entry.WellNamed := by
  cases spells with
  | plain exports => exact ⟨exports, by simp⟩
  | renamed exports blank apart blank' apart' isName => exact ⟨exports, by simpa using isName⟩

theorem SpellsGroup.wellNamed {entries : List Entry} {text : List Char}
    (spells : SpellsGroup entries text) : ∀ entry ∈ entries, entry.WellNamed := by
  induction spells with
  | close => simp
  | last blank spells blank' =>
      intro entry mem
      rw [Option.mem_toList] at mem
      exact (mem ▸ spells).wellNamed
  | more blank spells blank' further ih =>
      intro entry mem
      rcases List.mem_append.1 mem with mem | mem
      · rw [Option.mem_toList] at mem
        exact (mem ▸ spells).wellNamed
      · exact ih entry mem

theorem SpellsNames.wellNamed {clause : Clause} {text : List Char}
    (spells : SpellsNames clause text) : clause.WellNamed := by
  cases spells with
  | whole blank blank' apart' isName => exact ⟨by simp, by simpa using isName, by simp, .inr rfl⟩
  | group spells => exact ⟨by simp, by simp, spells.wellNamed, .inl rfl⟩

theorem SpellsClause.wellNamed {clause : Clause} {text : List Char}
    (spells : SpellsClause clause text) : clause.WellNamed := by
  cases spells with
  | default isName => exact ⟨by simpa using isName, by simp, by simp, .inl rfl⟩
  | names spells => exact spells.wellNamed
  | juxtaposed isName notType blank spells =>
      exact { spells.wellNamed with defaultName := by simpa using isName }
  | both isName blank blank' spells =>
      exact { spells.wellNamed with defaultName := by simpa using isName }

theorem spellsEntry_render {entry : Entry} (exports : IsExportName entry.exported)
    (isName : IsName entry.localName) : SpellsEntry (some entry.renamed) entry.render := by
  have space : isAllBlank [' '] = true := rfl
  have spells := SpellsEntry.renamed exports space (fun _ => List.cons_ne_nil _ _) space
    (List.cons_ne_nil _ _) (isName_generatedName isName)
  simpa [Entry.render, Entry.renamed] using spells

theorem spellsGroup_render {entries : List Entry} (some : entries ≠ [])
    (exports : ∀ entry ∈ entries, IsExportName entry.exported)
    (names : ∀ entry ∈ entries, IsName entry.localName) :
    SpellsGroup (entries.map Entry.renamed)
      (List.intercalate [','] (entries.map Entry.render) ++ ['\x7d']) := by
  induction entries with
  | nil => exact absurd rfl some
  | cons entry entries ih =>
      rw [List.forall_mem_cons] at exports names
      have spells := spellsEntry_render exports.1 names.1
      have noBlank : isAllBlank [] = true := rfl
      cases entries with
      | nil => simpa using SpellsGroup.last noBlank spells noBlank
      | cons next entries =>
          have further := ih (List.cons_ne_nil _ _) exports.2 names.2
          simpa [List.intercalate] using SpellsGroup.more noBlank spells noBlank further

/-- A clause under its generated names, with a blank after it, is one of the grammar. -/
theorem spellsClause_render {clause : Clause} (named : clause.WellNamed)
    (names : ∀ entry ∈ clause.entries, IsName entry.localName)
    (binds : clause.bindsName = true) :
    SpellsClause clause.renamed (clause.render ++ [' ']) := by
  obtain ⟨defaultName, moduleName, entries⟩ := clause
  have exports : ∀ entry ∈ entries, IsExportName entry.exported :=
    fun entry mem => (named.entries entry mem).exports
  have space : isAllBlank [' '] = true := rfl
  have noBlank : isAllBlank [] = true := rfl
  have apart : [' '] ≠ [] := List.cons_ne_nil _ _
  have whole : ∀ {name}, IsName name → SpellsNames ⟨none, some (generatedName name), []⟩
      ("* as ".toList ++ (generatedName name ++ [' '])) := fun isName =>
    .whole space space apart (isName_generatedName isName) space apart
  have group : ∀ {entry entries}, (∀ e ∈ entry :: entries, IsExportName e.exported) →
      (∀ e ∈ entry :: entries, IsName e.localName) →
      SpellsNames ⟨none, none, (entry :: entries).map Entry.renamed⟩
        ('\x7b' :: (List.intercalate [','] ((entry :: entries).map Entry.render) ++ ['\x7d'] ++
          [' '])) := fun exports names =>
    .group (spellsGroup_render (List.cons_ne_nil _ _) exports names) space
  cases defaultName with
  | none =>
      cases moduleName with
      | none =>
          cases entries with
          | nil => simp [Clause.bindsName] at binds
          | cons entry entries =>
              simpa [Clause.render, Clause.renamed, Clause.renderGroup?] using
                SpellsClause.names (group exports names)
      | some moduleName =>
          obtain rfl : entries = [] := by simpa using named.apart
          simpa [Clause.render, Clause.renamed, Clause.renderGroup?] using
            SpellsClause.names (whole (named.moduleName moduleName rfl))
  | some defaultName =>
      have isName := isName_generatedName (named.defaultName defaultName rfl)
      cases moduleName with
      | none =>
          cases entries with
          | nil =>
              simpa [Clause.render, Clause.renamed, Clause.renderGroup?] using
                SpellsClause.default isName space apart
          | cons entry entries =>
              simpa [Clause.render, Clause.renamed, Clause.renderGroup?] using
                SpellsClause.both isName noBlank noBlank (group exports names)
      | some moduleName =>
          obtain rfl : entries = [] := by simpa using named.apart
          simpa [Clause.render, Clause.renamed, Clause.renderGroup?] using
            SpellsClause.both isName noBlank noBlank (whole (named.moduleName moduleName rfl))

theorem spellsHead_render {clause : Clause} {specifier : List Char}
    (spells : SpellsClause clause.renamed (clause.render ++ [' ']))
    (quoted : Takes quoted? specifier) :
    SpellsHead clause.renamed specifier
      ("import ".toList ++ clause.render ++ " from ".toList ++ specifier) := by
  have space : isAllBlank [' '] = true := rfl
  have ends : EndsName ([' '] ++ (clause.render ++ [' '])) := endsName_cons.2 (by decide)
  simpa using SpellsHead.mk space ends spells space quoted

theorem SpellsHead.exists_clause {clause : Clause} {specifier head : List Char}
    (spells : SpellsHead clause specifier head) :
    (∃ text, SpellsClause clause text ∧ text ⊆ head) ∧ Takes quoted? specifier ∧
      specifier ⊆ head := by
  obtain @⟨gap, text, gap', specifier, blank, apart, spells, blank', quoted⟩ := spells
  refine ⟨⟨text, spells, ?_⟩, quoted, ?_⟩ <;> intro c mem <;> simp [mem]

/-- A declaration that is read is read again from the text that imports its names. -/
theorem parse?_renderImport {statement : List Char} {declaration : Declaration}
    (h : parse? statement = some declaration)
    (names : ∀ entry ∈ declaration.clause.entries, IsName entry.localName) :
    parse? declaration.renderImport = some declaration.renamed := by
  obtain ⟨head, rest, after, -, spells, hattributes, -, binds⟩ := exists_spellsHead h
  obtain ⟨⟨text, clause, -⟩, quoted, -⟩ := spells.exists_clause
  have rendered := spellsClause_render clause.wellNamed names binds
  exact parse?_of_spellsHead (spellsHead_render rendered quoted)
    (attributes?_attributes hattributes) rfl
    (declaration.clause.bindsName_renamed.trans binds)

/-! ## Semicolons -/

theorem mem_intercalate {α : Type} {separator : List α} {parts : List (List α)} {x : α}
    (h : x ∈ List.intercalate separator parts) :
    x ∈ separator ∨ ∃ part ∈ parts, x ∈ part := by
  induction parts with
  | nil => simp [List.intercalate] at h
  | cons part parts ih =>
      cases parts with
      | nil => exact .inr ⟨part, List.mem_cons_self, by simpa [List.intercalate] using h⟩
      | cons next parts =>
          have cut : x ∈ part ∨ x ∈ separator ∨ x ∈ List.intercalate separator (next :: parts) := by
            simpa [List.intercalate] using h
          rcases cut with mem | mem | mem
          · exact .inr ⟨part, List.mem_cons_self, mem⟩
          · exact .inl mem
          · exact (ih mem).imp id fun ⟨other, hother, mem⟩ =>
              ⟨other, List.mem_cons_of_mem part hother, mem⟩

theorem IsName.not_mem_semicolon {text : List Char} (name : IsName text) : ';' ∉ text :=
  fun mem => absurd (name.all_isIdentContinue _ mem) (by decide)

theorem SpellsEntry.exported_subset {entry : Entry} {text : List Char}
    (spells : SpellsEntry (some entry) text) : entry.exported ⊆ text := by
  cases spells with
  | plain => exact List.Subset.refl _
  | renamed => exact List.subset_append_left _ _

theorem SpellsGroup.exported_subset {entries : List Entry} {text : List Char}
    (spells : SpellsGroup entries text) : ∀ entry ∈ entries, entry.exported ⊆ text := by
  induction spells with
  | close => simp
  | last blank spells blank' =>
      intro entry mem c hc
      rw [Option.mem_toList] at mem
      have := (mem ▸ spells).exported_subset hc
      simp [this]
  | more blank spells blank' further ih =>
      intro entry mem c hc
      rcases List.mem_append.1 mem with mem | mem
      · rw [Option.mem_toList] at mem
        have := (mem ▸ spells).exported_subset hc
        simp [this]
      · have := ih entry mem hc
        simp [this]

theorem SpellsNames.exported_subset {clause : Clause} {text : List Char}
    (spells : SpellsNames clause text) : ∀ entry ∈ clause.entries, entry.exported ⊆ text := by
  cases spells with
  | whole => simp
  | group spells =>
      intro entry mem c hc
      have := spells.exported_subset entry mem hc
      simp [this]

theorem SpellsClause.exported_subset {clause : Clause} {text : List Char}
    (spells : SpellsClause clause text) : ∀ entry ∈ clause.entries, entry.exported ⊆ text := by
  cases spells with
  | default => simp
  | names spells => exact spells.exported_subset
  | juxtaposed isName notType blank spells =>
      intro entry mem c hc
      have := spells.exported_subset entry mem hc
      simp [this]
  | both isName blank blank' spells =>
      intro entry mem c hc
      have := spells.exported_subset entry mem hc
      simp [this]

theorem not_mem_semicolon_generatedName {name : List Char} (free : ';' ∉ name) :
    ';' ∉ generatedName name := by
  rw [generatedName, List.mem_append, not_or]
  exact ⟨by simp, free⟩

theorem Entry.WellNamed.isExportName_localName {entry : Entry} (named : entry.WellNamed) :
    IsExportName entry.localName := by
  cases rename : entry.rename with
  | none =>
      rw [Entry.localName, rename]
      exact named.exports
  | some name =>
      rw [Entry.localName, rename]
      exact .inl (named.rename name rename)

theorem Entry.WellNamed.not_mem_semicolon {entry : Entry} (named : entry.WellNamed)
    (free : ';' ∉ entry.exported) : ';' ∉ entry.localName := by
  cases rename : entry.rename with
  | none =>
      rw [Entry.localName, rename]
      exact free
  | some name =>
      rw [Entry.localName, rename]
      exact (named.rename name rename).not_mem_semicolon

theorem not_mem_semicolon_render {clause : Clause} (named : clause.WellNamed)
    (exports : ∀ entry ∈ clause.entries, ';' ∉ entry.exported) : ';' ∉ clause.render := by
  have generated : ∀ {name}, IsName name → ';' ∉ generatedName name := fun isName =>
    not_mem_semicolon_generatedName isName.not_mem_semicolon
  intro mem
  rcases mem_intercalate mem with mem | ⟨part, hpart, mem⟩
  · simp at mem
  simp only [List.mem_append, Option.mem_toList, Option.map_eq_some_iff] at hpart
  rcases hpart with (⟨name, hname, rfl⟩ | ⟨name, hname, rfl⟩) | hgroup
  · exact generated (named.defaultName name hname) mem
  · rcases List.mem_append.1 mem with mem | mem
    · simp at mem
    · exact generated (named.moduleName name hname) mem
  · cases hentries : clause.entries with
    | nil => simp [hentries, Clause.renderGroup?] at hgroup
    | cons entry entries =>
        have rendered : '\x7b' :: List.intercalate [','] (clause.entries.map Entry.render) ++
            ['\x7d'] = part := by
          rw [hentries] at hgroup ⊢
          simpa [Clause.renderGroup?] using hgroup
        subst rendered
        simp only [List.cons_append, List.mem_cons, List.mem_append] at mem
        rcases mem with mem | mem | mem
        · simp at mem
        · rcases mem_intercalate mem with mem | ⟨part, hpart, mem⟩
          · simp at mem
          obtain ⟨entry, hentry, rfl⟩ := List.mem_map.1 hpart
          rw [Entry.render, List.mem_append, List.mem_append] at mem
          rcases mem with (mem | mem) | mem
          · exact exports entry hentry mem
          · simp at mem
          · exact not_mem_semicolon_generatedName
              ((named.entries entry hentry).not_mem_semicolon (exports entry hentry)) mem
        · simp at mem

theorem not_mem_semicolon_renderImport {statement : List Char} {declaration : Declaration}
    (h : parse? statement = some declaration) (free : ';' ∉ statement) :
    ';' ∉ declaration.renderImport := by
  obtain ⟨head, rest, after, hstatement, spells, hattributes, -⟩ := exists_spellsHead h
  obtain ⟨⟨text, clause, htext⟩, -, hspecifier⟩ := spells.exists_clause
  rw [hstatement, List.mem_append, not_or] at free
  have exports : ∀ entry ∈ declaration.clause.entries, ';' ∉ entry.exported :=
    fun entry mem hc => free.1 (htext (clause.exported_subset entry mem hc))
  have attributes : ';' ∉ declaration.attributes := by
    intro mem
    have whole := (attributes?_cases hattributes).1
    exact free.2 (whole ▸ List.mem_append_left after mem)
  have specifier : ';' ∉ declaration.specifier := fun mem => free.1 (hspecifier mem)
  have rendered := not_mem_semicolon_render clause.wellNamed exports
  have parts : declaration.renderImport = "import ".toList ++ declaration.clause.render ++
    " from ".toList ++ declaration.specifier ++ declaration.attributes := rfl
  intro mem
  rw [parts] at mem
  simp only [List.mem_append] at mem
  rcases mem with (((mem | mem) | mem) | mem) | mem
  · simp at mem
  · exact rendered mem
  · simp at mem
  · exact specifier mem
  · exact attributes mem

/-! ## Rewritten statements -/

/-- A declaration is rewritten to one of the same exports of the same module in the
same order, bound to generated names, and to the declarations of the local names,
before the code after it. -/
theorem exists_parse?_rewrite {statement : List Char} {declaration : Declaration}
    (h : parse? statement = some declaration) (free : ';' ∉ statement)
    (names : ∀ binding ∈ declaration.bindings, IsName binding.localName) :
    ∃ rewritten : Declaration,
      parse? ((rewrite statement).takeWhile (· != ';')) = some rewritten ∧
      rewritten.specifier = declaration.specifier ∧
      rewritten.attributes = declaration.attributes ∧
      rewritten.tail = [] ∧
      rewritten.bindings = declaration.bindings.map Binding.renamed ∧
      rewrite statement = (rewrite statement).takeWhile (· != ';') ++ "; ".toList ++
        List.intercalate "; ".toList (declaration.bindings.map fun binding =>
          "var ".toList ++ binding.localName ++ " = ".toList ++ binding.generated) ++
        if declaration.tail.isEmpty then []
        else ';' :: (indent declaration.tail ++ rewrite (trimStart declaration.tail)) := by
  have locals : ∀ entry ∈ declaration.clause.entries, IsName entry.localName := by
    intro entry mem
    refine names ⟨entry.localName, declaration.specifier, .named entry.exported entry.rename⟩ ?_
    exact List.mem_append_right _ (List.mem_map.2 ⟨entry, mem, rfl⟩)
  have whole := rewrite_of_parse? h free
  have imported : (rewrite statement).takeWhile (· != ';') = declaration.renderImport := by
    have semicolon : ';' ∉ declaration.renderImport :=
      not_mem_semicolon_renderImport h free
    rw [whole, Declaration.render, List.append_assoc, List.append_assoc,
      List.takeWhile_append_of_pos (fun c mem => by
        rw [bne_iff_ne]
        rintro rfl
        exact semicolon mem)]
    simp
  rw [imported]
  exact ⟨declaration.renamed, parse?_renderImport h locals, rfl, rfl, rfl,
    declaration.bindings_renamed, whole⟩

/-- A default name beside a group in which keywords and quoted text name exports. -/
theorem exists_parse?_rewrite_group :
    let statement := "import d, \x7btype as as, 'a-b' as b\x7d from 'm' with \x7b\x7d\nf()".toList
    let declaration : Declaration :=
      ⟨⟨some "d".toList, none, [⟨"type".toList, some "as".toList⟩,
          ⟨"'a-b'".toList, some "b".toList⟩]⟩, "'m'".toList, " with \x7b\x7d".toList, "\nf()".toList⟩
    (parse? statement = some declaration ∧ ';' ∉ statement ∧
        ∀ binding ∈ declaration.bindings, IsName binding.localName) ∧
      ∃ rewritten : Declaration,
        parse? ((rewrite statement).takeWhile (· != ';')) = some rewritten ∧
        rewritten.specifier = declaration.specifier ∧
        rewritten.attributes = declaration.attributes ∧
        rewritten.tail = [] ∧
        rewritten.bindings = declaration.bindings.map Binding.renamed ∧
        rewrite statement = (rewrite statement).takeWhile (· != ';') ++ "; ".toList ++
          List.intercalate "; ".toList (declaration.bindings.map fun binding =>
            "var ".toList ++ binding.localName ++ " = ".toList ++ binding.generated) ++
          if declaration.tail.isEmpty then []
          else ';' :: (indent declaration.tail ++ rewrite (trimStart declaration.tail)) := by
  intro statement declaration
  have space : isAllBlank [' '] = true := rfl
  have noBlank : isAllBlank [] = true := rfl
  have apart : [' '] ≠ [] := List.cons_ne_nil _ _
  have named : ∀ name ∈ ["d", "as", "b"], IsName name.toList := by
    intro name mem
    simp only [List.mem_cons, List.not_mem_nil, or_false] at mem
    rcases mem with rfl | rfl | rfl <;> exact isName_of_all (by simp) (by decide)
  have first := SpellsEntry.renamed (.inl isName_type) space (fun _ => apart) space apart
    (named "as" (by simp))
  have quoted : Takes quoted? "'a-b'".toList := fun _ => rfl
  have second := SpellsEntry.renamed (.inr quoted) space (fun _ => apart) space apart
    (named "b" (by simp))
  have group := SpellsGroup.more noBlank first noBlank (.last space second noBlank)
  have clause := SpellsClause.both (named "d" (by simp)) noBlank space (.group group space)
  have endsImport : EndsName ([' '] ++ "d, \x7btype as as, 'a-b' as b\x7d ".toList) :=
    endsName_cons.2 (by decide)
  have head := SpellsHead.mk space endsImport clause space fun _ => (rfl : quoted?
    ("'m'".toList ++ _) = _)
  have parsed : parse? statement = some declaration :=
    parse?_of_spellsHead head rfl rfl rfl
  have free : ';' ∉ statement := by decide
  have names : ∀ binding ∈ declaration.bindings, IsName binding.localName := by
    simpa [declaration, Declaration.bindings, Entry.localName] using
      And.intro (named "d" (by simp)) (And.intro (named "as" (by simp)) (named "b" (by simp)))
  exact ⟨⟨parsed, free, names⟩, exists_parse?_rewrite parsed free names⟩

end ScriptConsole.Import

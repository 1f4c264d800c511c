import ScriptConsole.Proofs.Import.Legal

/-!
# The line after a declaration

Code on the line after a declaration is kept apart from it and rewritten by itself.  The
reader looks for attributes across the line break, though, and code that opens with their
keyword is taken for attributes, whatever follows the keyword.
-/

namespace ScriptConsole.Import

open Text

/-- A declaration with nothing after its module. -/
structure IsAlone (clause : List Char) (declaration : Declaration) : Prop where
  parsed : parse? clause = some declaration
  trimmed : trim clause = clause
  free : ';' ∉ clause
  bare : declaration.attributes = []
  noTail : declaration.tail = []

/-- Code that stands on the next line. -/
structure IsNext (code : List Char) : Prop where
  trimmed : trim code = code
  visible : code ≠ []
  free : ';' ∉ code

namespace IsNext

variable {code : List Char}

theorem opensVisibly_reverse (next : IsNext code) : OpensVisibly ('\n' :: code).reverse := by
  rw [List.reverse_cons]
  have closes := trimEnd_eq_self_iff.1 (trimEnd_of_trim next.trimmed)
  exact closes.append (by simpa using next.visible) _

theorem trimStart_line (next : IsNext code) : trimStart ('\n' :: code) = code := by
  have dropped : trimStart (['\n'] ++ code) = trimStart code := trimStart_append rfl code
  exact dropped.trans (trimStart_of_trim next.trimmed)

theorem indent_line (next : IsNext code) : indent ('\n' :: code) = ['\n'] := by
  have whole := indent_append_trimStart ('\n' :: code)
  rw [next.trimStart_line, ← List.singleton_append] at whole
  exact List.append_cancel_right whole

theorem marksAttributes_line (next : IsNext code) :
    marksAttributes ('\n' :: code) = marksAttributes code := by
  rw [marksAttributes, marksAttributes, next.trimStart_line, trimStart_of_trim next.trimmed]

end IsNext

namespace IsAlone

variable {clause code : List Char} {declaration : Declaration}

theorem spellsHead (alone : IsAlone clause declaration) :
    SpellsHead declaration.clause declaration.specifier clause := by
  obtain ⟨head, rest, after, rfl, spells, hattributes, htail, -⟩ := exists_spellsHead alone.parsed
  have closes := trimEnd_eq_self_iff.1 (trimEnd_of_trim alone.trimmed)
  rw [List.reverse_append] at closes
  obtain ⟨rfl, -, -⟩ := seesTail_of_read hattributes htail closes.of_append
  rw [alone.bare, alone.noTail, List.append_nil, List.append_nil]
  exact spells

/-- Code without a keyword of attributes is the tail of the declaration before it. -/
theorem parse?_append_line (alone : IsAlone clause declaration) (next : IsNext code)
    (unmarked : marksAttributes ('\n' :: code) = false) :
    parse? (clause ++ '\n' :: code) = some { declaration with tail := '\n' :: code } := by
  obtain ⟨-, -, -, -, -, -, -, binds⟩ := exists_spellsHead alone.parsed
  have read : attributes? ('\n' :: code) = some ([], '\n' :: code) :=
    attributes?_of_not_marks unmarked
  have seen : tail? ('\n' :: code) = some ('\n' :: code) :=
    (tail?_eq_some_iff next.opensVisibly_reverse).2
      ⟨rfl, fun _ => ⟨[], '\n', code, rfl, List.forall_mem_nil _, .inl rfl⟩⟩
  rw [parse?_of_spellsHead alone.spellsHead read seen binds, ← alone.bare]

/-- Code with a keyword of attributes is taken for attributes if it is read at all. -/
theorem exists_attributes_of_parse? (alone : IsAlone clause declaration)
    (marked : marksAttributes ('\n' :: code) = true) {other : Declaration}
    (parsed : parse? (clause ++ '\n' :: code) = some other) :
    other.clause = declaration.clause ∧ other.specifier = declaration.specifier ∧
      ∃ more, other.attributes = '\n' :: more := by
  have head : headOf? (clause ++ '\n' :: code) =
      some (declaration.clause, declaration.specifier, '\n' :: code) :=
    headOf?_eq_some_iff.2 ⟨clause, rfl, alone.spellsHead⟩
  rw [parse?_eq, head, Option.bind_some] at parsed
  simp only [Option.bind_eq_some_iff] at parsed
  obtain ⟨⟨attributes, rest⟩, hattributes, tail, -, parsed⟩ := parsed
  split at parsed
  · cases parsed
    refine ⟨rfl, rfl, ?_⟩
    obtain ⟨whole, ⟨-, unmarked⟩ | spells⟩ := attributes?_cases hattributes
    · rw [unmarked] at marked
      cases marked
    · obtain ⟨c, more, rfl⟩ := List.exists_cons_of_ne_nil spells.ne_nil
      rw [List.cons_append] at whole
      rw [(List.cons.inj whole).1]
      exact ⟨more, rfl⟩
  · cases parsed

theorem trim_append_line (alone : IsAlone clause declaration) (next : IsNext code) :
    trim (clause ++ '\n' :: code) = clause ++ '\n' :: code := by
  have closes : OpensVisibly (clause ++ '\n' :: code).reverse := by
    rw [List.reverse_append]
    exact next.opensVisibly_reverse.append (by simp) _
  exact trim_of_opensVisibly (alone.spellsHead.opensVisibly _) closes

theorem rewrite_eq (alone : IsAlone clause declaration) : rewrite clause = declaration.render := by
  rw [rewrite_of_parse? alone.parsed alone.free, alone.noTail]
  exact List.append_nil _

theorem bindings_eq (alone : IsAlone clause declaration) :
    bindings clause = declaration.bindings := by
  have nothing : bindings (trimStart []) = [] := bindings_of_not_opensWithImport rfl
  rw [bindings_of_parse? alone.parsed alone.free, alone.noTail, nothing, List.append_nil]

end IsAlone

theorem renderImport_of_bare {declaration other : Declaration}
    (sameClause : other.clause = declaration.clause)
    (sameSpecifier : other.specifier = declaration.specifier)
    (bare : declaration.attributes = []) :
    other.renderImport = declaration.renderImport ++ other.attributes := by
  unfold Declaration.renderImport
  rw [sameClause, sameSpecifier, bare, List.append_nil]

/-- Code on the line after a declaration without attributes is rewritten by itself, behind
the local names of the declaration, if and only if it does not open with a keyword of
attributes. -/
theorem rewrite_append_line_iff {clause code : List Char} {declaration : Declaration}
    (alone : IsAlone clause declaration) (next : IsNext code) :
    (rewrite (clause ++ '\n' :: code) = rewrite clause ++ ";\n".toList ++ rewrite code ∧
      bindings (clause ++ '\n' :: code) = bindings clause ++ bindings code) ↔
    marksAttributes code = false := by
  have free : ';' ∉ clause ++ '\n' :: code := by
    simp [alone.free, next.free]
  rw [← next.marksAttributes_line, alone.rewrite_eq, alone.bindings_eq]
  constructor
  · rintro ⟨sameText, sameBindings⟩
    refine Bool.eq_false_iff.2 fun marked => ?_
    cases parsed : parse? (clause ++ '\n' :: code) with
    | none =>
        rw [(rewrite_of_parse?_eq_none (alone.trim_append_line next) free parsed).2] at sameBindings
        exact bindings_ne_nil_of_parse? alone.parsed (List.append_eq_nil_iff.1 sameBindings.symm).1
    | some other =>
        obtain ⟨sameClause, sameSpecifier, more, attributed⟩ :=
          alone.exists_attributes_of_parse? marked parsed
        have imported := renderImport_of_bare sameClause sameSpecifier alone.bare
        rw [attributed] at imported
        -- Where the semicolon behind the module should stand, the attributes begin.
        rw [rewrite_of_parse? parsed free, Declaration.render, Declaration.render, imported]
          at sameText
        simp only [List.append_assoc, List.append_cancel_left_eq] at sameText
        exact absurd (congrArg List.head? sameText) (by simp)
  · intro unmarked
    have parsed := alone.parse?_append_line next unmarked
    have sameImport : { declaration with tail := '\n' :: code }.render = declaration.render := rfl
    rw [rewrite_of_parse? parsed free, bindings_of_parse? parsed free, sameImport,
      next.trimStart_line, next.indent_line]
    constructor
    · simp
    · rfl

/-- A word that only opens like a keyword of attributes, before another declaration. -/
theorem rewrite_append_line_iff_withdraw :
    let clause := "import a from 'm'".toList
    let code := "withdraw(a)\nimport b from 'n'".toList
    let declaration : Declaration := ⟨⟨some "a".toList, none, []⟩, "'m'".toList, [], []⟩
    (IsAlone clause declaration ∧ IsNext code) ∧
      rewrite (clause ++ '\n' :: code) = rewrite clause ++ ";\n".toList ++ rewrite code ∧
      bindings (clause ++ '\n' :: code) = bindings clause ++ bindings code := by
  intro clause code declaration
  have space : isAllBlank [' '] = true := rfl
  have name : IsName "a".toList := isName_of_all (by simp) (by decide)
  have head : SpellsHead declaration.clause "'m'".toList clause :=
    .mk space (endsName_cons.2 (by decide)) (.default name space (List.cons_ne_nil _ _)) space
      fun _ => rfl
  have parsed : parse? (clause ++ []) = some declaration := parse?_of_spellsHead head rfl rfl rfl
  have alone : IsAlone clause declaration := ⟨parsed, rfl, by decide, rfl, rfl⟩
  have next : IsNext code := ⟨rfl, List.cons_ne_nil _ _, by decide⟩
  exact ⟨⟨alone, next⟩, (rewrite_append_line_iff alone next).2 (by decide)⟩

/-- A call on the next line is taken for attributes, though no group follows its name. -/
theorem rewrite_append_line_ne_assert :
    let clause := "import a from 'm'".toList
    let code := "assert(a)".toList
    (∃ declaration, IsAlone clause declaration) ∧ IsNext code ∧
      (∀ word ∈ ["with", "assert"], ∀ gap more, isAllBlank gap = true →
        code ≠ word.toList ++ (gap ++ '\x7b' :: more)) ∧
      rewrite (clause ++ '\n' :: code) ≠ rewrite clause ++ ";\n".toList ++ rewrite code ∧
      bindings (clause ++ '\n' :: code) ≠ bindings clause ++ bindings code := by
  intro clause code
  have space : isAllBlank [' '] = true := rfl
  have name : IsName "a".toList := isName_of_all (by simp) (by decide)
  have head : SpellsHead ⟨some "a".toList, none, []⟩ "'m'".toList clause :=
    .mk space (endsName_cons.2 (by decide)) (.default name space (List.cons_ne_nil _ _)) space
      fun _ => rfl
  have parsed : parse? (clause ++ []) = some ⟨_, _, [], []⟩ :=
    parse?_of_spellsHead head rfl rfl rfl
  have alone : IsAlone clause _ := ⟨parsed, rfl, by decide, rfl, rfl⟩
  have next : IsNext code := ⟨rfl, List.cons_ne_nil _ _, by decide⟩
  have headed : headOf? (clause ++ '\n' :: code) = some (_, _, '\n' :: code) :=
    headOf?_eq_some_iff.2 ⟨clause, rfl, head⟩
  have unread : attributes? ('\n' :: code) = none := rfl
  have refused : parse? (clause ++ '\n' :: code) = none := by
    simp only [parse?_eq, headed, Option.bind_some, unread, Option.bind_none]
  obtain ⟨kept, unbound⟩ :=
    rewrite_of_parse?_eq_none (alone.trim_append_line next) (by decide) refused
  refine ⟨⟨_, alone⟩, next, ?_, ?_, ?_⟩
  · intro word mem gap more blank same
    have dropped := trimStart_append_of_opensVisibly blank
      (opensVisibly_cons.2 (by decide) : OpensVisibly ('\x7b' :: more))
    simp only [List.mem_cons, List.not_mem_nil, or_false] at mem
    rcases mem with rfl | rfl
    · exact absurd (List.cons.inj same).1 (by decide)
    · have whole : "assert".toList ++ "(a)".toList = "assert".toList ++ (gap ++ '\x7b' :: more) :=
        same
      rw [← List.append_cancel_left whole] at dropped
      have first : some '(' = some '\x7b' := congrArg List.head? dropped
      exact absurd (Option.some.inj first) (by decide)
  · rw [kept, alone.rewrite_eq, rewrite_of_not_opensWithImport rfl]
    decide
  · rw [unbound, alone.bindings_eq]
    exact (List.append_ne_nil_of_left_ne_nil (bindings_ne_nil_of_parse? parsed) _).symm

end ScriptConsole.Import

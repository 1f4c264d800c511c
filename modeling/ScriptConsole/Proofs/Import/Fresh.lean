import Mathlib.Data.List.Nodup
import ScriptConsole.Proofs.Import.Inserted
import ScriptConsole.Proofs.Import.Joining

/-!
# Whether generated names are fresh

A generated name is a fixed opening before the local name, whatever else the statement
binds.  So generated names differ from each other as the local names do, but a local name
may itself be a generated one: then the declaration that is inserted for it declares a name
again that a rewritten import binds.
-/

namespace ScriptConsole.Import

open Text

/-- The names that the imports among some pieces bind. -/
def importedNames (pieces : List (List Char)) : List (List Char) :=
  (pieces.filterMap parse?).flatMap fun declaration => declaration.bindings.map (·.localName)

theorem importedNames_append (pieces others : List (List Char)) :
    importedNames (pieces ++ others) = importedNames pieces ++ importedNames others := by
  simp [importedNames, List.filterMap_append]

theorem importedNames_flatMap {α : Type} (parts : List α) (f : α → List (List Char)) :
    importedNames (parts.flatMap f) = parts.flatMap fun part => importedNames (f part) := by
  induction parts with
  | nil => rfl
  | cons part parts ih => simp only [List.flatMap_cons, importedNames_append, ih]

theorem importedNames_of_none {piece : List Char} (other : parse? piece = none) :
    importedNames [piece] = [] := by
  simp [importedNames, other]

/-! ## Generated names -/

theorem generatedName_injective : Function.Injective generatedName :=
  fun _ _ => List.append_cancel_left

theorem nodup_map_generated (bindings : List Binding) :
    (bindings.map Binding.generated).Nodup ↔ (bindings.map (·.localName)).Nodup := by
  have composed : bindings.map Binding.generated =
      (bindings.map (·.localName)).map generatedName := by
    rw [List.map_map]
    rfl
  rw [composed, List.nodup_map_iff generatedName_injective]

/-- A rewritten declaration binds the generated names in place of the local ones. -/
theorem importedNames_renderImport {statement : List Char} {declaration : Declaration}
    (parsed : parse? statement = some declaration)
    (named : ∀ binding ∈ declaration.bindings, IsName binding.localName) :
    importedNames [declaration.renderImport] = declaration.bindings.map Binding.generated := by
  have names : ∀ entry ∈ declaration.clause.entries, IsName entry.localName := fun entry mem =>
    named ⟨entry.localName, declaration.specifier, .named entry.exported entry.rename⟩
      (List.mem_append_right _ (List.mem_map.2 ⟨entry, mem, rfl⟩))
  have read := parse?_renderImport parsed names
  simp [importedNames, read, Declaration.bindings_renamed, Binding.renamed, Function.comp_def]

/-! ## Statements -/

theorem tail_subset_of_parse? {statement : List Char} {declaration : Declaration}
    (parsed : parse? statement = some declaration) : declaration.tail ⊆ statement := by
  obtain ⟨head, rest, after, rfl, -, hattributes, htail, -⟩ := exists_spellsHead parsed
  obtain ⟨rfl, -⟩ := attributes?_cases hattributes
  have within : declaration.tail ⊆ after := by
    obtain ⟨gap, -, cut⟩ := exists_gap_trimEnd after
    have trimmed : trimEnd after ⊆ after := fun c mem => cut ▸ List.mem_append_left gap mem
    unfold tail? at htail
    split at htail
    · simp [← Option.some.inj htail]
    · split at htail
      · rwa [Option.some.inj htail] at trimmed
      · rwa [Option.some.inj htail] at trimmed
      · cases htail
  exact fun c mem => List.mem_append_right _ (List.mem_append_right _ (within mem))

/-- A statement opens with an import if it does without the blanks around it. -/
theorem opensWithImport_of_trim {statement : List Char}
    (opens : opensWithImport (trim statement) = true) : opensWithImport statement = true := by
  obtain ⟨gap, blank, cut⟩ := exists_gap_trimEnd (trimStart statement)
  have ends : EndsName gap := List.append_nil gap ▸ endsName_append blank endsName_nil
  have started := opensWithImport_append opens ends
  rw [trim, ← cut] at started
  rwa [opensWithImport, trimStart_of_opensVisibly (opensVisibly_trimStart statement)] at started

/-- A piece binds the generated names if the code after its declaration does. -/
theorem importedNames_keptOfPiece {piece : List Char}
    (named : ∀ binding ∈ bindingsOfPiece piece, IsName binding.localName)
    (further : ∀ declaration, parse? (trim piece) = some declaration →
      importedNames (keptPieces (trimStart declaration.tail)) =
        (bindings (trimStart declaration.tail)).map Binding.generated) :
    importedNames (keptOfPiece piece) = (bindingsOfPiece piece).map Binding.generated := by
  unfold keptOfPiece
  unfold bindingsOfPiece at named ⊢
  cases parsed : parse? (trim piece) with
  | none => exact importedNames_of_none parsed
  | some declaration =>
      rw [parsed] at named
      have own : ∀ binding ∈ declaration.bindings, IsName binding.localName :=
        fun binding mem => named binding (List.mem_append_left _ mem)
      have imported := importedNames_renderImport parsed own
      have nothing : bindings (trimStart []) = [] := bindings_of_not_opensWithImport rfl
      dsimp only
      rw [← List.singleton_append, importedNames_append, imported, List.map_append]
      split
      · rename_i none
        rw [List.isEmpty_iff.1 none, nothing]
        rfl
      · rw [further declaration parsed]

/-- The imports that are kept from a statement which opens with one bind the generated names,
in order.  So do those of code after a declaration, which has no semicolon: if it does not
open with an import, it holds none. -/
theorem importedNames_keptPieces {statement : List Char}
    (imports : opensWithImport statement = true ∨ ';' ∉ statement)
    (named : ∀ binding ∈ bindings statement, IsName binding.localName) :
    importedNames (keptPieces statement) = (bindings statement).map Binding.generated := by
  induction hlength : statement.length using Nat.strong_induction_on generalizing statement with
  | _ length ih =>
      rw [keptPieces_eq]
      rw [bindings_eq] at named ⊢
      split
      · rename_i opens
        rw [if_pos opens] at named
        rw [importedNames_flatMap, List.map_flatMap]
        refine List.flatMap_congr fun piece mem => ?_
        have ofPiece : ∀ binding ∈ bindingsOfPiece piece, IsName binding.localName :=
          fun binding bound => named binding (List.mem_flatMap.2 ⟨piece, mem, bound⟩)
        refine importedNames_keptOfPiece ofPiece fun declaration parsed => ?_
        have shorter := tail_length_lt_of_mem_cutAtChar mem parsed
        have free : ';' ∉ trimStart declaration.tail := fun semicolon =>
          not_mem_of_mem_cutAtChar mem (trim_subset piece (tail_subset_of_parse? parsed
            (List.dropWhile_subset _ semicolon)))
        refine ih _ (hlength ▸ shorter) (.inr free) (fun binding bound => ?_) rfl
        refine ofPiece binding ?_
        rw [bindingsOfPiece, parsed]
        exact List.mem_append_right _ bound
      · rename_i closed
        have free := imports.resolve_left closed
        rw [pieces_of_not_mem free]
        refine importedNames_of_none ?_
        cases parsed : parse? (trim statement) with
        | none => rfl
        | some declaration =>
            exact absurd (opensWithImport_of_trim (opensWithImport_of_parse? parsed)) closed

/-- Read from left to right between its semicolons, a rewritten statement has its own pieces,
whose imports bind exactly the generated names, and the inserted declarations of the local
names.  No name is imported twice if and only if none was before.  An inserted declaration
declares an imported name again if and only if one local name of the statement is another one
with `repl_` before it. -/
theorem redeclares_imported_iff {statement : List Char}
    (named : ∀ binding ∈ bindings statement, IsName binding.localName) :
    ∃ written : List (List Char ⊕ Binding),
      pieces (rewrite statement) = written.map (Sum.elim id Binding.declareLocal) ∧
      written.filterMap Sum.getRight? = bindings statement ∧
      (opensWithImport statement = true →
        importedNames (written.filterMap Sum.getLeft?) =
            (bindings statement).map Binding.generated ∧
          ((importedNames (written.filterMap Sum.getLeft?)).Nodup ↔
            ((bindings statement).map (·.localName)).Nodup)) ∧
      ((∃ binding ∈ bindings statement,
          binding.localName ∈ importedNames (written.filterMap Sum.getLeft?)) ↔
        ∃ first ∈ bindings statement, ∃ second ∈ bindings statement,
          second.localName = "repl_".toList ++ first.localName) := by
  obtain ⟨written, read, kept, inserted⟩ := reads_rewrite statement
  refine ⟨written, read, inserted, ?_, ?_⟩
  · intro opens
    have imported := importedNames_keptPieces (.inl opens) named
    rw [kept, imported]
    exact ⟨rfl, nodup_map_generated _⟩
  · by_cases opens : opensWithImport statement = true
    · rw [kept, importedNames_keptPieces (.inl opens) named]
      constructor
      · rintro ⟨second, hsecond, mem⟩
        obtain ⟨first, hfirst, same⟩ := List.mem_map.1 mem
        exact ⟨first, hfirst, second, hsecond, same.symm⟩
      · rintro ⟨first, hfirst, second, hsecond, same⟩
        exact ⟨second, hsecond, List.mem_map.2 ⟨first, hfirst, same.symm⟩⟩
    · rw [bindings_of_not_opensWithImport (Bool.eq_false_iff.2 opens)]
      simp

theorem parse?_group {entries : List Entry} {text : List Char} (spells : SpellsGroup entries text)
    (ne : entries ≠ []) :
    parse? ("import \x7b".toList ++ (text ++ " from 'm'".toList)) =
      some ⟨⟨none, none, entries⟩, "'m'".toList, [], []⟩ := by
  have space : isAllBlank [' '] = true := rfl
  have ends : EndsName ([' '] ++ ('\x7b' :: (text ++ [' ']))) := endsName_cons.2 (by decide)
  have head := SpellsHead.mk space ends (.names (.group spells space)) space fun _ =>
    (rfl : quoted? ("'m'".toList ++ _) = _)
  have binds : (⟨none, none, entries⟩ : Clause).bindsName = true := by
    simpa [Clause.bindsName, List.isEmpty_iff] using ne
  have noAttributes : attributes? [] = some ([], []) := rfl
  have parsed := parse?_of_spellsHead head noAttributes rfl binds
  simpa using parsed

/-- A name and another one with `repl_` before it, which is bound under a third name. -/
theorem redeclares_imported_iff_renamed :
    let statement := "import \x7ba,repl_a as b\x7d from 'm'".toList
    let bound := bindings statement
    bound.map (·.localName) = ["a".toList, "b".toList] ∧
      (∀ binding ∈ bound, IsName binding.localName) ∧
      ∃ written : List (List Char ⊕ Binding),
        pieces (rewrite statement) = written.map (Sum.elim id Binding.declareLocal) ∧
        written.filterMap Sum.getRight? = bound ∧
        importedNames (written.filterMap Sum.getLeft?) = ["repl_a".toList, "repl_b".toList] ∧
        ∀ binding ∈ bound,
          binding.localName ∉ importedNames (written.filterMap Sum.getLeft?) := by
  intro statement bound
  have space : isAllBlank [' '] = true := rfl
  have noBlank : isAllBlank [] = true := rfl
  have apart : [' '] ≠ [] := List.cons_ne_nil _ _
  have a : IsName "a".toList := isName_of_all (by simp) (by decide)
  have b : IsName "b".toList := isName_of_all (by simp) (by decide)
  have group : SpellsGroup [⟨"a".toList, none⟩, ⟨"repl_a".toList, some "b".toList⟩]
      "a,repl_a as b\x7d".toList :=
    .more noBlank (.plain (.inl a)) noBlank (.last noBlank
      (.renamed (.inl (isName_generatedName a)) space (fun _ => apart) space apart b) noBlank)
  have parsed : parse? statement = some _ := parse?_group group (List.cons_ne_nil _ _)
  have nothing : bindings (trimStart []) = [] := bindings_of_not_opensWithImport rfl
  have bound_eq : bound = [⟨"a".toList, "'m'".toList, .named "a".toList none⟩,
      ⟨"b".toList, "'m'".toList, .named "repl_a".toList (some "b".toList)⟩] := by
    refine (bindings_of_parse? parsed (by decide)).trans ?_
    rw [nothing]
    rfl
  have named : ∀ binding ∈ bound, IsName binding.localName := by
    rw [bound_eq]
    simpa using ⟨a, b⟩
  obtain ⟨written, read, inserted, imports, redeclares⟩ := redeclares_imported_iff named
  obtain ⟨imported, -⟩ := imports (opensWithImport_of_parse? parsed)
  refine ⟨by rw [bound_eq]; rfl, named, written, read, inserted, ?_, ?_⟩
  · rw [imported]
    change bound.map Binding.generated = _
    rw [bound_eq]
    rfl
  · intro binding mem again
    obtain ⟨first, hfirst, second, hsecond, same⟩ := redeclares.1 ⟨binding, mem, again⟩
    change first ∈ bound at hfirst
    change second ∈ bound at hsecond
    rw [bound_eq] at hfirst hsecond
    simp only [List.mem_cons, List.not_mem_nil, or_false] at hfirst hsecond
    rcases hfirst with rfl | rfl <;> rcases hsecond with rfl | rfl <;> exact absurd same (by decide)

/-- The local name of one binding is the generated name of another, and is declared again. -/
theorem rewrite_redeclares :
    let statement := "import \x7ba,repl_a\x7d from 'm'".toList
    (∃ first ∈ bindings statement, ∃ second ∈ bindings statement,
        first.generated = second.localName) ∧
      rewrite statement = ("import \x7ba as repl_a,repl_a as repl_repl_a\x7d from 'm'; " ++
        "var a = repl_a; var repl_a = repl_repl_a").toList := by
  intro statement
  have noBlank : isAllBlank [] = true := rfl
  have a : IsName "a".toList := isName_of_all (by simp) (by decide)
  have group : SpellsGroup [⟨"a".toList, none⟩, ⟨"repl_a".toList, none⟩]
      "a,repl_a\x7d".toList :=
    .more noBlank (.plain (.inl a)) noBlank
      (.last noBlank (.plain (.inl (isName_generatedName a))) noBlank)
  have parsed : parse? statement = some _ := parse?_group group (List.cons_ne_nil _ _)
  have nothing : bindings (trimStart []) = [] := bindings_of_not_opensWithImport rfl
  have bound : bindings statement = [⟨"a".toList, "'m'".toList, .named "a".toList none⟩,
      ⟨"repl_a".toList, "'m'".toList, .named "repl_a".toList none⟩] := by
    refine (bindings_of_parse? parsed (by decide)).trans ?_
    rw [nothing]
    rfl
  constructor
  · rw [bound]
    exact ⟨_, List.mem_cons_self, _, List.mem_cons_of_mem _ List.mem_cons_self, rfl⟩
  · exact (rewrite_of_parse? parsed (by decide)).trans (by decide)

end ScriptConsole.Import

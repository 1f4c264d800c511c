import ScriptConsole.Proofs.Import.RoundTrip

/-!
# The declarations that rewriting inserts

A rewritten statement is cut at its semicolons again.  From left to right its pieces are
those of the statement itself, with declarations under their generated names, and
between them the declarations of local names, one for each binding and in their order.
-/

namespace ScriptConsole.Import

open Text

/-! ## The two traversals -/

/-- What a piece of a statement is rewritten to. -/
def rewritePiece (piece : List Char) : List Char :=
  match parse? (trim piece) with
  | none => trim piece
  | some declaration =>
      declaration.render ++
        if declaration.tail.isEmpty then []
        else ';' :: (indent declaration.tail ++ rewrite (trimStart declaration.tail))

/-- What a piece of a statement binds, the imports on the lines after it included. -/
def bindingsOfPiece (piece : List Char) : List Binding :=
  match parse? (trim piece) with
  | none => []
  | some declaration => declaration.bindings ++ bindings (trimStart declaration.tail)

theorem rewritePiece_eq (piece : List Char) :
    (pieceSegments piece).flatMap Segment.render = rewritePiece piece := by
  unfold pieceSegments rewritePiece
  cases parse? (trim piece) with
  | none => exact List.append_nil _
  | some declaration =>
      dsimp only
      split <;> simp [Segment.render, rewrite]

theorem bindingsOfPiece_eq (piece : List Char) :
    (pieceSegments piece).flatMap Segment.bindings = bindingsOfPiece piece := by
  have nothing : bindings (trimStart []) = [] := bindings_of_not_opensWithImport rfl
  unfold pieceSegments bindingsOfPiece
  cases parse? (trim piece) with
  | none => rfl
  | some declaration =>
      dsimp only
      split
      · rename_i none
        rw [List.isEmpty_iff.1 none, nothing]
        simp [Segment.bindings]
      · simp [Segment.bindings, bindings]

/-- Rewriting goes through the pieces of a statement and joins what they become. -/
theorem rewrite_eq (statement : List Char) :
    rewrite statement =
      if opensWithImport statement then
        List.intercalate "; ".toList ((cutAtChar ';' statement).map rewritePiece)
      else statement := by
  rw [rewrite, segments_eq]
  split
  · rw [flatMap_intercalate, List.map_map]
    simp only [Function.comp_def, rewritePiece_eq, List.flatMap_singleton, Segment.render]
  · exact List.append_nil _

theorem bindings_eq (statement : List Char) :
    bindings statement =
      if opensWithImport statement then (cutAtChar ';' statement).flatMap bindingsOfPiece
      else [] := by
  rw [bindings, segments_eq]
  split
  · obtain ⟨piece, pieces, cut⟩ := List.exists_cons_of_ne_nil (cutAtChar_ne_nil ';' statement)
    rw [flatMap_intercalate, List.map_map, cut, List.map_cons, intercalate_cons_eq_append,
      List.flatMap_cons, List.flatMap_map]
    simp only [Function.comp_def, bindingsOfPiece_eq, List.flatMap_cons, List.flatMap_nil,
      Segment.bindings, List.nil_append]
  · rfl

/-! ## Reading a rewritten statement -/

/-- The pieces of a text between its semicolons, without the blanks around them. -/
def pieces (cs : List Char) : List (List Char) :=
  (cutAtChar ';' cs).map trim

theorem pieces_append (cs rest : List Char) :
    pieces (cs ++ ';' :: rest) = pieces cs ++ pieces rest := by
  rw [pieces, cutAtChar_append_cons, List.map_append]
  rfl

theorem pieces_append_of_isAllBlank {gap : List Char} (blank : isAllBlank gap = true)
    (cs : List Char) : pieces (gap ++ cs) = pieces cs := by
  obtain ⟨piece, others, cut⟩ := List.exists_cons_of_ne_nil (cutAtChar_ne_nil ';' cs)
  have free : ';' ∉ gap := not_mem_of_isAllBlank blank (by decide)
  have same : trim (gap ++ piece) = trim piece := by
    rw [trim, trimStart_append blank]
    rfl
  rw [pieces, pieces, cutAtChar_append free cut, cut, List.map_cons, List.map_cons, same]

theorem pieces_of_not_mem {cs : List Char} (free : ';' ∉ cs) : pieces cs = [trim cs] := by
  rw [pieces, cutAtChar_of_not_mem free, List.map_singleton]

/-- A text whose pieces are those kept from a statement, with declarations of local names
between them. -/
def Reads (kept : List (List Char)) (bound : List Binding) (text : List Char) : Prop :=
  ∃ written : List (List Char ⊕ Binding),
    pieces text = written.map (Sum.elim id Binding.declareLocal) ∧
      written.filterMap Sum.getLeft? = kept ∧ written.filterMap Sum.getRight? = bound

namespace Reads

variable {kept kept' : List (List Char)} {bound bound' : List Binding} {text text' : List Char}

theorem all (text : List Char) : Reads (pieces text) [] text := by
  refine ⟨(pieces text).map .inl, ?_, ?_, ?_⟩
  · simp
  · simp [List.filterMap_map, Function.comp_def]
  · simp [List.filterMap_map, Function.comp_def]

theorem declared {binding : Binding} (trimmed : trim binding.declareLocal = binding.declareLocal)
    (free : ';' ∉ binding.declareLocal) : Reads [] [binding] binding.declareLocal := by
  refine ⟨[.inr binding], ?_, rfl, rfl⟩
  rw [pieces_of_not_mem free, trimmed]
  rfl

theorem append (first : Reads kept bound text) (second : Reads kept' bound' text')
    {gap : List Char} (blank : isAllBlank gap = true) :
    Reads (kept ++ kept') (bound ++ bound') (text ++ ';' :: (gap ++ text')) := by
  obtain ⟨written, hpieces, rfl, rfl⟩ := first
  obtain ⟨written', hpieces', rfl, rfl⟩ := second
  refine ⟨written ++ written', ?_, ?_, ?_⟩
  · rw [pieces_append, pieces_append_of_isAllBlank blank, hpieces, hpieces', List.map_append]
  · rw [List.filterMap_append]
  · rw [List.filterMap_append]

theorem intercalate {α : Type} {kept : α → List (List Char)} {bound : α → List Binding}
    {text : α → List Char} {parts : List α} (some : parts ≠ [])
    (each : ∀ part ∈ parts, Reads (kept part) (bound part) (text part)) :
    Reads (parts.flatMap kept) (parts.flatMap bound)
      (List.intercalate "; ".toList (parts.map text)) := by
  induction parts with
  | nil => exact absurd rfl some
  | cons part parts ih =>
      rw [List.forall_mem_cons] at each
      cases parts with
      | nil => simpa using each.1
      | cons next parts =>
          have space : isAllBlank [' '] = true := rfl
          have read := each.1.append (ih (List.cons_ne_nil _ _) each.2) space
          rw [List.map_cons, List.map_cons, List.intercalate_cons_cons, List.append_assoc]
          exact read

end Reads

/-! ## Rewritten declarations -/

/-- The local names of a declaration are names or quoted text without semicolons. -/
theorem localName_of_mem_bindings {statement : List Char} {declaration : Declaration}
    (parsed : parse? statement = some declaration) (free : ';' ∉ statement) :
    ∀ binding ∈ declaration.bindings,
      IsExportName binding.localName ∧ ';' ∉ binding.localName := by
  obtain ⟨head, rest, after, rfl, spells, -⟩ := exists_spellsHead parsed
  obtain ⟨⟨text, clause, within⟩, -, -⟩ := spells.exists_clause
  have named := clause.wellNamed
  intro binding mem
  simp only [Declaration.bindings, List.mem_append, Option.mem_toList, Option.map_eq_some_iff,
    List.mem_map] at mem
  rcases mem with (⟨name, hname, rfl⟩ | ⟨name, hname, rfl⟩) | ⟨entry, hentry, rfl⟩
  · have isName := named.defaultName name hname
    exact ⟨.inl isName, isName.not_mem_semicolon⟩
  · have isName := named.moduleName name hname
    exact ⟨.inl isName, isName.not_mem_semicolon⟩
  · have exported : ';' ∉ entry.exported := fun mem =>
      free (List.mem_append_left _ (within (clause.exported_subset entry hentry mem)))
    exact ⟨(named.entries entry hentry).isExportName_localName,
      (named.entries entry hentry).not_mem_semicolon exported⟩

theorem trim_declareLocal {binding : Binding} (named : IsExportName binding.localName) :
    trim binding.declareLocal = binding.declareLocal := by
  apply trim_of_opensVisibly
  · exact opensVisibly_cons.2 (by decide)
  · simp only [Binding.declareLocal, Binding.generated, generatedName, List.reverse_append,
      List.append_assoc]
    exact named.opensVisibly_reverse.append (by simpa using named.ne_nil) _

theorem not_mem_semicolon_declareLocal {binding : Binding} (free : ';' ∉ binding.localName) :
    ';' ∉ binding.declareLocal := by
  have generated := not_mem_semicolon_generatedName free
  simp only [Binding.declareLocal, Binding.generated, List.mem_append, not_or]
  exact ⟨⟨⟨by simp, free⟩, by simp⟩, generated⟩

theorem trim_renderImport {statement : List Char} {declaration : Declaration}
    (parsed : parse? statement = some declaration) :
    trim declaration.renderImport = declaration.renderImport := by
  obtain ⟨head, rest, after, rfl, spells, hattributes, -⟩ := exists_spellsHead parsed
  obtain ⟨-, quoted, -⟩ := spells.exists_clause
  have named : IsExportName declaration.specifier := .inr quoted
  have attributed := (attributes?_cases hattributes).2
  apply trim_of_opensVisibly
  · exact opensVisibly_cons.2 (by decide)
  · unfold Declaration.renderImport
    simp only [List.reverse_append, List.append_assoc]
    rcases attributed with ⟨none, -⟩ | attributed
    · rw [none, List.reverse_nil, List.nil_append]
      exact named.opensVisibly_reverse.append (by simpa using named.ne_nil) _
    · exact attributed.opensVisibly_reverse.append (by simpa using attributed.ne_nil) _

/-- A rewritten declaration reads as the import of its names and its local names. -/
theorem Declaration.reads_render {statement : List Char} {declaration : Declaration}
    (parsed : parse? statement = some declaration) (free : ';' ∉ statement) :
    Reads [declaration.renderImport] declaration.bindings declaration.render := by
  have imported : Reads [declaration.renderImport] [] declaration.renderImport := by
    have read := Reads.all declaration.renderImport
    rwa [pieces_of_not_mem (not_mem_semicolon_renderImport parsed free),
      trim_renderImport parsed] at read
  have locals : Reads [] declaration.bindings
      (List.intercalate "; ".toList (declaration.bindings.map Binding.declareLocal)) := by
    have each : ∀ binding ∈ declaration.bindings, Reads [] [binding] binding.declareLocal := by
      intro binding mem
      obtain ⟨named, free⟩ := localName_of_mem_bindings parsed free binding mem
      exact .declared (trim_declareLocal named) (not_mem_semicolon_declareLocal free)
    have read := Reads.intercalate (bindings_ne_nil_of_parse? parsed) each
    rwa [List.flatMap_singleton', List.flatMap_eq_nil_iff.2 fun _ _ => rfl] at read
  have space : isAllBlank [' '] = true := rfl
  have read := imported.append locals space
  rw [Declaration.render, List.append_assoc]
  exact read

/-! ## Statements -/

/-- The code after a declaration is shorter than the statement that its piece is cut from. -/
theorem tail_length_lt_of_mem_cutAtChar {statement piece : List Char} {declaration : Declaration}
    (mem : piece ∈ cutAtChar ';' statement) (parsed : parse? (trim piece) = some declaration) :
    (trimStart declaration.tail).length < statement.length := by
  have h1 := tail_length_lt_of_parse? parsed
  have h2 := trim_length_le piece
  have h3 := length_le_of_mem_cutAtChar mem
  have h4 := trimStart_length_le declaration.tail
  omega

/-- The pieces of a statement itself, its declarations under their generated names. -/
def keptPieces (statement : List Char) : List (List Char) :=
  if opensWithImport statement then
    (cutAtChar ';' statement).attach.flatMap fun piece =>
      match _h : parse? (trim piece.1) with
      | none => [trim piece.1]
      | some declaration =>
          declaration.renderImport ::
            if declaration.tail.isEmpty then [] else keptPieces (trimStart declaration.tail)
  else pieces statement
termination_by statement.length
decreasing_by exact tail_length_lt_of_mem_cutAtChar piece.2 _h

def keptOfPiece (piece : List Char) : List (List Char) :=
  match parse? (trim piece) with
  | none => [trim piece]
  | some declaration =>
      declaration.renderImport ::
        if declaration.tail.isEmpty then [] else keptPieces (trimStart declaration.tail)

theorem keptPieces_eq (statement : List Char) :
    keptPieces statement =
      if opensWithImport statement then (cutAtChar ';' statement).flatMap keptOfPiece
      else pieces statement := by
  rw [keptPieces]
  split
  · conv_rhs => rw [← List.attach_map_subtype_val (cutAtChar ';' statement), List.flatMap_map]
    refine List.flatMap_congr fun piece _ => ?_
    unfold keptOfPiece
    split <;> simp_all
  · rfl

/-- A piece reads as it should if the code after its declaration does. -/
theorem reads_rewritePiece {piece : List Char} (free : ';' ∉ piece)
    (further : ∀ declaration, parse? (trim piece) = some declaration →
      Reads (keptPieces (trimStart declaration.tail)) (bindings (trimStart declaration.tail))
        (rewrite (trimStart declaration.tail))) :
    Reads (keptOfPiece piece) (bindingsOfPiece piece) (rewritePiece piece) := by
  have free' : ';' ∉ trim piece := fun mem => free (trim_subset piece mem)
  unfold keptOfPiece bindingsOfPiece rewritePiece
  cases parsed : parse? (trim piece) with
  | none =>
      have read := Reads.all (trim piece)
      rwa [pieces_of_not_mem free', trim_trim] at read
  | some declaration =>
      have imported := Declaration.reads_render parsed free'
      dsimp only
      split
      · rename_i none
        have nothing : bindings (trimStart []) = [] := bindings_of_not_opensWithImport rfl
        rw [List.isEmpty_iff.1 none, nothing, List.append_nil, List.append_nil]
        exact imported
      · exact imported.append (further declaration parsed) (isAllBlank_indent _)

/-- A rewritten statement reads as its own pieces and the declarations of its local names.
The induction is on the length of the statement, which the code after a declaration falls
short of. -/
theorem reads_rewrite (statement : List Char) :
    Reads (keptPieces statement) (bindings statement) (rewrite statement) := by
  induction hlength : statement.length using Nat.strong_induction_on generalizing statement with
  | _ length ih =>
      rw [keptPieces_eq, bindings_eq, rewrite_eq]
      split
      · refine Reads.intercalate (cutAtChar_ne_nil ';' statement) fun piece mem => ?_
        refine reads_rewritePiece (not_mem_of_mem_cutAtChar mem) fun declaration parsed => ?_
        have shorter := tail_length_lt_of_mem_cutAtChar mem parsed
        exact ih _ (hlength ▸ shorter) _ rfl
      · exact Reads.all statement

/-- Rewriting and collecting go through the pieces of a statement each by itself, and come
to an end on every statement.  Read from left to right between its semicolons, what is
rewritten has one inserted declaration `var local = generated` for each binding that is
collected, in their order, and apart from them it has the pieces of the statement. -/
theorem exists_written (statement : List Char) :
    rewrite statement =
        (if opensWithImport statement then
          List.intercalate "; ".toList ((cutAtChar ';' statement).map rewritePiece)
        else statement) ∧
      bindings statement =
        (if opensWithImport statement then (cutAtChar ';' statement).flatMap bindingsOfPiece
        else []) ∧
      ∃ written : List (List Char ⊕ Binding),
        (cutAtChar ';' (rewrite statement)).map trim =
          written.map (Sum.elim id fun binding =>
            "var ".toList ++ binding.localName ++ " = ".toList ++ binding.generated) ∧
        written.filterMap Sum.getLeft? = keptPieces statement ∧
        written.filterMap Sum.getRight? = bindings statement := by
  refine ⟨rewrite_eq statement, bindings_eq statement, ?_⟩
  exact reads_rewrite statement

end ScriptConsole.Import

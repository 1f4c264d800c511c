import Mathlib.Data.List.TakeWhile
import ScriptConsole.Proofs.Import.Grammar
import ScriptConsole.Proofs.Text.Cutting

/-!
# Pieces of a statement

What may follow a declaration: attributes, then nothing or code on a line of its
own.  A piece is trimmed before it is read, which takes nothing away from a
declaration.
-/

namespace ScriptConsole

namespace Import

open Text

/-! ## Attributes -/

/-- The texts of an attribute clause, with the blanks before it. -/
inductive SpellsAttributes : List Char → Prop where
  | mk {gap gap' group : List Char} {word : String} (isWord : word = "with" ∨ word = "assert")
      (blank : isAllBlank gap = true) (blank' : isAllBlank gap' = true)
      (braced : Takes braced? group) :
      SpellsAttributes (gap ++ (word.toList ++ (gap' ++ group)))

theorem SpellsAttributes.ne_nil {text : List Char} (spells : SpellsAttributes text) :
    text ≠ [] := by
  obtain ⟨isWord, -, -, -⟩ := spells
  rcases isWord with rfl | rfl <;> simp

/-- Whether a text opens with a keyword of attributes. -/
def marksAttributes (cs : List Char) : Bool :=
  ((keyword? "with" (trimStart cs)).or (keyword? "assert" (trimStart cs))).isSome

theorem isName_with : IsName "with".toList := isName_of_all (by simp) (by decide)

theorem isName_assert : IsName "assert".toList := isName_of_all (by simp) (by decide)

theorem opensVisibly_of_braced {text : List Char} (takes : Takes braced? text)
    (cs : List Char) : OpensVisibly (text ++ cs) ∧ EndsName (text ++ cs) := by
  obtain ⟨more, rfl⟩ := exists_brace_of_takes takes
  exact ⟨opensVisibly_cons.2 (by decide), endsName_cons.2 (by decide)⟩

/-- Attributes are read whole, whatever follows. -/
theorem attributes?_of_spells {text : List Char} (spells : SpellsAttributes text)
    (cs : List Char) : attributes? (text ++ cs) = some (text, cs) := by
  obtain @⟨gap, gap', group, word, isWord, blank, blank', braced⟩ := spells
  obtain ⟨visible, ends⟩ := opensVisibly_of_braced braced cs
  have trimmed : trimStart (gap' ++ (group ++ cs)) = group ++ cs :=
    trimStart_append_of_opensVisibly blank' visible
  have ends' : EndsName (gap' ++ (group ++ cs)) := endsName_append blank' ends
  have marked : (keyword? "with" (word.toList ++ (gap' ++ (group ++ cs)))).or
      (keyword? "assert" (word.toList ++ (gap' ++ (group ++ cs)))) =
        some (gap' ++ (group ++ cs)) := by
    rcases isWord with rfl | rfl
    · rw [keyword?_eq_some_iff.2 ⟨rfl, ends'⟩]
      rfl
    · rw [keyword?_eq_none_of_ne isName_with isName_assert ends' (by simp),
        keyword?_eq_some_iff.2 ⟨rfl, ends'⟩]
      rfl
  have word' : OpensVisibly (word.toList ++ (gap' ++ (group ++ cs))) := by
    rcases isWord with rfl | rfl
    · exact isName_with.opensVisibly _
    · exact isName_assert.opensVisibly _
  simp only [List.append_assoc, attributes?, trimStart_append_of_opensVisibly blank word', marked,
    trimmed, Option.bind_eq_bind, braced cs, Option.bind_some]
  simp [← List.append_assoc]

theorem attributes?_of_not_marks {cs : List Char} (h : marksAttributes cs = false) :
    attributes? cs = some ([], cs) := by
  have : (keyword? "with" (trimStart cs)).or (keyword? "assert" (trimStart cs)) = none := by
    simpa [marksAttributes] using h
  simp only [attributes?, this]

/-- A text opens with attributes that are read, or with no keyword of them. -/
theorem attributes?_cases {cs attributes after : List Char}
    (h : attributes? cs = some (attributes, after)) :
    cs = attributes ++ after ∧
      (attributes = [] ∧ marksAttributes cs = false ∨ SpellsAttributes attributes) := by
  unfold attributes? at h
  dsimp only at h
  split at h
  · rename_i unmarked
    obtain ⟨rfl, rfl⟩ := Prod.mk.inj (Option.some.inj h)
    exact ⟨rfl, .inl ⟨rfl, by simpa [marksAttributes] using unmarked⟩⟩
  · rename_i rest marked
    obtain ⟨gap, blank, hcs⟩ := exists_gap_trimStart cs
    obtain ⟨gap', blank', hrest⟩ := exists_gap_trimStart rest
    simp only [Option.bind_eq_bind, Option.bind_eq_some_iff, Option.some.injEq,
      Prod.mk.injEq] at h
    obtain ⟨⟨group, last⟩, hgroup, htake, rfl⟩ := h
    obtain ⟨hgroup, braced⟩ := braced?_eq_some_iff.1 hgroup
    obtain ⟨word, isWord, hword⟩ : ∃ word : String, (word = "with" ∨ word = "assert") ∧
        trimStart cs = word.toList ++ rest := by
      rcases Option.or_eq_some_iff.1 marked with h | ⟨-, h⟩
      · exact ⟨"with", .inl rfl, (keyword?_eq_some_iff.1 h).1⟩
      · exact ⟨"assert", .inr rfl, (keyword?_eq_some_iff.1 h).1⟩
    have whole : cs = (gap ++ (word.toList ++ (gap' ++ group))) ++ last := by
      rw [hcs, hword, hrest, hgroup]
      simp only [List.append_assoc]
    have taken : attributes = gap ++ (word.toList ++ (gap' ++ group)) := by
      rw [← htake, whole]
      simp [← List.append_assoc]
    exact ⟨by rw [taken]; exact whole, .inr (taken ▸ .mk isWord blank blank' braced)⟩

theorem attributes?_attributes {cs attributes after : List Char}
    (h : attributes? cs = some (attributes, after)) :
    attributes? attributes = some (attributes, []) := by
  obtain ⟨-, ⟨rfl, -⟩ | spells⟩ := attributes?_cases h
  · rfl
  · simpa using attributes?_of_spells spells []

/-! ## Trimming -/

theorem keyword?_append_of_isAllBlank {word : String} {cs rest gap : List Char}
    (h : keyword? word cs = some rest) (blank : isAllBlank gap = true) :
    keyword? word (cs ++ gap) = some (rest ++ gap) := by
  obtain ⟨rfl, ends⟩ := keyword?_eq_some_iff.1 h
  refine keyword?_eq_some_iff.2 ⟨List.append_assoc .., ?_⟩
  cases rest with
  | nil =>
      have := endsName_append blank endsName_nil
      simpa using this
  | cons c rest => exact endsName_cons.2 (endsName_cons.1 ends)

/-- Blanks at the end of a text do not make a keyword of its opening. -/
theorem marksAttributes_trimEnd {cs : List Char} (h : marksAttributes cs = false) :
    marksAttributes (trimEnd cs) = false := by
  obtain ⟨gap, blank, hcs⟩ := exists_gap_trimEnd cs
  have further : ∀ {word : String}, IsName word.toList →
      keyword? word (trimStart cs) = none →
        keyword? word (trimStart (trimEnd cs)) = none := by
    intro word isWord hnone
    cases hk : keyword? word (trimStart (trimEnd cs)) with
    | none => rfl
    | some rest =>
        have opens : trimStart (trimEnd cs) ≠ [] := by
          rw [(keyword?_eq_some_iff.1 hk).1]
          exact List.append_ne_nil_of_left_ne_nil isWord.ne_nil rest
        rw [hcs, trimStart_append_of_ne_nil opens,
          keyword?_append_of_isAllBlank hk blank] at hnone
        cases hnone
  simp only [marksAttributes, Option.isSome_eq_false_iff, Option.isNone_iff_eq_none,
    Option.or_eq_none_iff] at h ⊢
  exact ⟨further isName_with h.1, further isName_assert h.2⟩

theorem SpellsAttributes.opensVisibly_reverse {text : List Char}
    (spells : SpellsAttributes text) : OpensVisibly text.reverse := by
  obtain @⟨gap, gap', group, word, isWord, blank, blank', braced⟩ := spells
  have ne : group.reverse ≠ [] := by
    obtain ⟨more, rfl⟩ := exists_brace_of_takes braced
    simp
  simpa only [List.reverse_append, List.append_assoc] using
    (opensVisibly_reverse_of_braced braced).append ne
      (gap'.reverse ++ (word.toList.reverse ++ gap.reverse))

theorem attributes?_trimEnd {cs attributes after : List Char}
    (h : attributes? cs = some (attributes, after)) :
    attributes? (trimEnd cs) = some (attributes, trimEnd after) := by
  obtain ⟨hcs, ⟨rfl, unmarked⟩ | spells⟩ := attributes?_cases h
  · rw [attributes?_of_not_marks (marksAttributes_trimEnd unmarked)]
    simp [hcs]
  · rw [hcs, trimEnd_append spells.opensVisibly_reverse]
    exact attributes?_of_spells spells _

theorem tail?_trimEnd {cs tail : List Char} (h : tail? cs = some tail) :
    tail? (trimEnd cs) = some tail := by
  by_cases blank : isAllBlank cs = true
  · rw [tail?, if_pos blank] at h
    rw [tail?, isAllBlank_trimEnd, if_pos blank]
    exact h
  · obtain ⟨gap, -, hcs⟩ := exists_gap_trimEnd cs
    have spaces : (trimEnd cs).dropWhile (fun c => c == ' ' || c == '\t') ≠ [] := by
      intro none
      refine blank ((isAllBlank_trimEnd cs).symm.trans ?_)
      rw [List.dropWhile_eq_nil_iff] at none
      refine List.all_eq_true.2 fun c hc => ?_
      have := none c hc
      simp only [Bool.or_eq_true, beq_iff_eq] at this
      rcases this with rfl | rfl <;> rfl
    have head : (cs.dropWhile fun c => c == ' ' || c == '\t').head? =
        ((trimEnd cs).dropWhile fun c => c == ' ' || c == '\t').head? := by
      have dropped := congrArg (List.dropWhile fun c => c == ' ' || c == '\t') hcs
      rw [List.dropWhile_append, if_neg (by simpa using spaces)] at dropped
      rw [dropped, List.head?_append_of_ne_nil _ spaces]
    rw [tail?, if_neg blank, head] at h
    rw [tail?, isAllBlank_trimEnd, if_neg blank, trimEnd_trimEnd]
    exact h

theorem SpellsHead.opensVisibly_reverse {clause : Clause} {specifier head : List Char}
    (spells : SpellsHead clause specifier head) : OpensVisibly head.reverse := by
  obtain @⟨gap, text, gap', specifier, -, -, -, -, quoted⟩ := spells
  have ne : specifier.reverse ≠ [] := by
    obtain ⟨quote, more, rfl, -⟩ := exists_quote_of_takes quoted
    simp
  simpa only [List.reverse_append, List.append_assoc] using
    (opensVisibly_reverse_of_quoted quoted).append ne _

theorem SpellsHead.opensVisibly {clause : Clause} {specifier head : List Char}
    (spells : SpellsHead clause specifier head) (cs : List Char) :
    OpensVisibly (head ++ cs) := by
  obtain ⟨-, -, -, -, -⟩ := spells
  exact opensVisibly_cons.2 (by decide)

theorem parse?_trim {statement : List Char} {declaration : Declaration}
    (h : parse? statement = some declaration) :
    trimStart statement = statement ∧ parse? (trim statement) = some declaration := by
  obtain ⟨head, rest, after, rfl, spells, hattributes, htail, binds⟩ := exists_spellsHead h
  have started : trimStart (head ++ rest) = head ++ rest :=
    trimStart_of_opensVisibly (spells.opensVisibly rest)
  refine ⟨started, ?_⟩
  rw [trim, started, trimEnd_append spells.opensVisibly_reverse]
  exact parse?_of_spellsHead spells (attributes?_trimEnd hattributes) (tail?_trimEnd htail) binds

/-! ## Segments of pieces -/

def pieceSegments (piece : List Char) : List Segment :=
  match parse? (trim piece) with
  | none => [.code (trim piece)]
  | some declaration =>
      .importing declaration ::
        if declaration.tail.isEmpty then []
        else
          .code (';' :: indent declaration.tail) :: segments (trimStart declaration.tail)

theorem segments_eq (statement : List Char) :
    segments statement =
      if opensWithImport statement then
        List.intercalate [.code "; ".toList] ((cutAtChar ';' statement).map pieceSegments)
      else [.code statement] := by
  rw [segments]
  split
  · congr 1
    rw [← List.attach_map_val (f := pieceSegments)]
    refine List.map_congr_left fun piece _ => ?_
    rw [pieceSegments]
    split <;> simp_all
  · rfl

theorem opensWithImport_of_parse? {statement : List Char} {declaration : Declaration}
    (h : parse? statement = some declaration) : opensWithImport statement = true := by
  rw [opensWithImport, (parse?_trim h).1]
  unfold parse? at h
  split at h
  · cases h
  · rename_i hk
    simp [hk]

theorem bindings_of_not_opensWithImport {statement : List Char}
    (closed : opensWithImport statement = false) : bindings statement = [] := by
  rw [bindings, segments_eq, closed]
  rfl

/-- A declaration without semicolons is a piece of its own, whatever blanks close it. -/
theorem segments_of_parse? {statement : List Char} {declaration : Declaration}
    (h : parse? statement = some declaration) (free : ';' ∉ statement) :
    segments statement = .importing declaration ::
      if declaration.tail.isEmpty then []
      else .code (';' :: indent declaration.tail) :: segments (trimStart declaration.tail) := by
  rw [segments_eq, if_pos (opensWithImport_of_parse? h), cutAtChar_of_not_mem free,
    List.map_singleton, List.intercalate_singleton, pieceSegments, (parse?_trim h).2]

/-- A declaration without semicolons is rewritten to what imports its names, its local
names, and the code after it. -/
theorem rewrite_of_parse? {statement : List Char} {declaration : Declaration}
    (h : parse? statement = some declaration) (free : ';' ∉ statement) :
    rewrite statement = declaration.render ++
      if declaration.tail.isEmpty then []
      else ';' :: (indent declaration.tail ++ rewrite (trimStart declaration.tail)) := by
  rw [rewrite, segments_of_parse? h free]
  split <;> simp [Segment.render, rewrite]

theorem bindings_of_parse? {statement : List Char} {declaration : Declaration}
    (h : parse? statement = some declaration) (free : ';' ∉ statement) :
    bindings statement = declaration.bindings ++ bindings (trimStart declaration.tail) := by
  have nothing : bindings (trimStart []) = [] := bindings_of_not_opensWithImport rfl
  rw [bindings, segments_of_parse? h free]
  split
  · rename_i none
    rw [List.isEmpty_iff.1 none, nothing]
    simp [Segment.bindings]
  · simp [Segment.bindings, bindings]

theorem bindings_ne_nil_of_parse? {statement : List Char} {declaration : Declaration}
    (h : parse? statement = some declaration) : declaration.bindings ≠ [] := by
  obtain ⟨-, -, -, -, -, -, -, binds⟩ := exists_spellsHead h
  intro none
  simp only [Declaration.bindings, List.append_eq_nil_iff, Option.toList_eq_nil_iff,
    Option.map_eq_none_iff, List.map_eq_nil_iff] at none
  simp [Clause.bindsName, none] at binds

/-- A trimmed statement without semicolons is a piece of its own. -/
theorem segments_of_not_mem {piece : List Char} (trimmed : trim piece = piece)
    (free : ';' ∉ piece) : segments piece = pieceSegments piece := by
  rw [segments_eq]
  split
  · rw [cutAtChar_of_not_mem free, List.map_singleton, List.intercalate_singleton]
  · rename_i closed
    have other : parse? piece = none := by
      cases parsed : parse? piece with
      | none => rfl
      | some declaration => exact absurd (opensWithImport_of_parse? parsed) closed
    rw [pieceSegments, trimmed, other]

end Import

end ScriptConsole

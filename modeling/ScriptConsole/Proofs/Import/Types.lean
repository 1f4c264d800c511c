import ScriptConsole.Proofs.Import.Legal

/-!
# Types in the group of a declaration

A type binds nothing, so a declaration with types in its group should be rewritten as
the one without them.  It is, as long as the whole is read: a type that gets another
name makes the reader refuse the declaration, and then its text is kept with the types.
-/

namespace ScriptConsole

namespace Text

theorem eq_takeWhile_of_cutAtChar {separator : Char} {cs piece : List Char}
    {pieces : List (List Char)} (cut : cutAtChar separator cs = piece :: pieces) :
    piece = cs.takeWhile (· != separator) := by
  induction cs generalizing piece pieces with
  | nil =>
      cases cut
      rfl
  | cons c cs ih =>
      by_cases same : c = separator
      · rw [cutAtChar, if_pos same] at cut
        cases cut
        rw [List.takeWhile_cons_of_neg (by simp [same])]
      · obtain ⟨piece', pieces', cut', whole⟩ := exists_cutAtChar_cons same cs
        rw [whole] at cut
        cases cut
        rw [List.takeWhile_cons_of_pos (by simp [same]), ← ih cut']

end Text

namespace Import

open Text

/-! ## Declarations at the head of a statement -/

/-- What follows a module can be read: attributes or none, and code that is seen. -/
def IsFollowed (after : List Char) : Prop :=
  ∃ attributes tail, after = attributes ++ tail ∧ LegalAttributes attributes ∧
    SeesTail attributes tail

namespace LegalHead

variable {clause : Clause} {items : List Item} {specifier head : List Char}

theorem isFollowed_of_parse? (legal : LegalHead clause items specifier head)
    {after : List Char} {declaration : Declaration}
    (parsed : parse? (head ++ after) = some declaration) (closes : OpensVisibly after.reverse) :
    (∀ item ∈ items, item.renamesType = false) ∧ IsFollowed after := by
  have plain : ∀ item ∈ items, item.renamesType = false := by
    by_contra renames
    rw [legal.parse?_eq_none renames] at parsed
    cases parsed
  refine ⟨plain, ?_⟩
  rw [parse?_eq, legal.headOf?_eq plain, Option.bind_some] at parsed
  simp only [Option.bind_eq_some_iff] at parsed
  obtain ⟨⟨attributes, rest⟩, hattributes, tail, htail, -⟩ := parsed
  exact ⟨attributes, tail, seesTail_of_read hattributes htail closes⟩

theorem opensVisibly (legal : LegalHead clause items specifier head) (cs : List Char) :
    OpensVisibly (head ++ cs) := by
  obtain ⟨-, -, -, -, -⟩ := legal
  exact opensVisibly_cons.2 (by decide)

theorem opensVisibly_reverse (legal : LegalHead clause items specifier head) :
    OpensVisibly head.reverse := by
  obtain ⟨-, -, -, -, quoted⟩ := legal
  obtain ⟨quote, more, rfl, -⟩ := exists_quote_of_takes (takes_quoted_iff.2 quoted)
  simpa only [List.reverse_append, List.append_assoc] using
    (opensVisibly_reverse_of_quoted (takes_quoted_iff.2 quoted)).append (by simp) _

theorem trim_append (legal : LegalHead clause items specifier head) {gap : List Char}
    (blank : isAllBlank gap = true) (cs : List Char) :
    trim (gap ++ (head ++ cs)) = head ++ trimEnd cs := by
  rw [trim, trimStart_append_of_opensVisibly blank (legal.opensVisibly cs),
    trimEnd_append legal.opensVisibly_reverse]

theorem opensWithImport (legal : LegalHead clause items specifier head) {gap : List Char}
    (blank : isAllBlank gap = true) (after : List Char) :
    opensWithImport (gap ++ (head ++ after)) = true := by
  have opens := legal.opensVisibly after
  obtain @⟨gap', text, gap'', specifier, -, apart, legal, -, -⟩ := legal
  have ends : EndsName (gap' ++ (text ++ ("from".toList ++ (gap'' ++ (specifier ++ after))))) := by
    rw [← List.append_assoc]
    exact apart.append (by simp [legal.ne_nil]) _
  rw [Import.opensWithImport, trimStart_append_of_opensVisibly blank opens]
  simp only [List.append_assoc]
  rw [keyword?_eq_some_iff.2 ⟨rfl, ends⟩]
  rfl

end LegalHead

theorem pieceSegments_congr {piece piece' : List Char} (same : trim piece = trim piece') :
    pieceSegments piece = pieceSegments piece' := by
  rw [pieceSegments, pieceSegments, same]

/-- What a statement goes on with does not depend on the declaration at its head. -/
theorem exists_segments_append (after : List Char) :
    ∃ others, ∀ {clause items specifier head gap}, LegalHead clause items specifier head →
      isAllBlank gap = true → ';' ∉ head →
      segments (gap ++ (head ++ after)) =
        pieceSegments (head ++ trimEnd (after.takeWhile (· != ';'))) ++ others := by
  obtain ⟨piece, pieces, cut⟩ := List.exists_cons_of_ne_nil (cutAtChar_ne_nil ';' after)
  refine ⟨(pieces.map pieceSegments).flatMap fun other => [.code "; ".toList] ++ other,
    fun {clause items specifier head gap} legal blank free => ?_⟩
  have noBlank : isAllBlank [] = true := rfl
  have same : trim (gap ++ (head ++ piece)) = trim (head ++ trimEnd piece) := by
    have alone := legal.trim_append noBlank (trimEnd piece)
    rw [List.nil_append, trimEnd_trimEnd] at alone
    rw [legal.trim_append blank, alone]
  have whole := cutAtChar_append (not_mem_of_isAllBlank blank (by decide))
    (cutAtChar_append free cut)
  rw [segments_eq, if_pos (legal.opensWithImport blank after), whole, List.map_cons,
    intercalate_cons_eq_append, pieceSegments_congr same, eq_takeWhile_of_cutAtChar cut]

/-! ## Deleting types -/

/-- Types may be deleted from the group of a declaration at the head of a statement, with
any change of the blanks and commas beside them: what is rewritten and what is bound stay
the same if and only if no type of the group gets another name and what follows the
module can be read. -/
theorem rewrite_eq_iff_of_sublist {clause : Clause} {items items' : List Item}
    {gap head head' specifier : List Char} (blank : isAllBlank gap = true)
    (legal : LegalHead clause items specifier head)
    (legal' : LegalHead clause items' specifier head') (fewer : items'.Sublist items)
    (binds : clause.bindsName = true) (free : ';' ∉ head ++ head') (after : List Char) :
    (rewrite (gap ++ (head' ++ after)) = rewrite (gap ++ (head ++ after)) ∧
      bindings (gap ++ (head' ++ after)) = bindings (gap ++ (head ++ after))) ↔
    head' = head ∨ (∀ item ∈ items, item.renamesType = false) ∧
      IsFollowed (trimEnd (after.takeWhile (· != ';'))) := by
  obtain ⟨others, split⟩ := exists_segments_append after
  rw [List.mem_append, not_or] at free
  have closes : OpensVisibly (trimEnd (after.takeWhile (· != ';'))).reverse :=
    trimEnd_eq_self_iff.1 (trimEnd_trimEnd _)
  -- Both statements go on alike behind their first pieces, so only these are compared.
  simp only [rewrite, bindings, split legal blank free.1, split legal' blank free.2,
    List.flatMap_append, List.append_cancel_right_eq]
  generalize trimEnd (after.takeWhile (· != ';')) = rest at closes ⊢
  have alone : ∀ {items head}, LegalHead clause items specifier head →
      trim (head ++ rest) = head ++ rest := by
    intro items head legal
    have noBlank : isAllBlank [] = true := rfl
    have trimmed := legal.trim_append noBlank rest
    rwa [List.nil_append, trimEnd_eq_self_iff.2 closes] at trimmed
  constructor
  · rintro ⟨sameText, sameBindings⟩
    refine or_iff_not_imp_right.2 fun refused => ?_
    have kept : parse? (head ++ rest) = none := by
      refine Option.eq_none_iff_forall_ne_some.2 fun declaration parsed => ?_
      exact refused (legal.isFollowed_of_parse? parsed closes)
    rw [pieceSegments, pieceSegments, alone legal, alone legal', kept] at sameText sameBindings
    -- The first statement binds nothing, so the second may not be read either, and then
    -- both are kept as they are.
    cases parsed : parse? (head' ++ rest) with
    | none =>
        rw [parsed] at sameText
        simpa [Segment.render] using sameText
    | some declaration =>
        rw [parsed] at sameBindings
        simp only [List.flatMap_cons, List.flatMap_nil, List.append_nil] at sameBindings
        exact absurd (List.append_eq_nil_iff.1 sameBindings).1 (bindings_ne_nil_of_parse? parsed)
  · rintro (rfl | ⟨plain, attributes, tail, rfl, attributed, sees⟩)
    · exact ⟨rfl, rfl⟩
    · rw [List.reverse_append] at closes
      have parsed := (legal.parse?_eq_some_iff attributed closes.of_append binds).2 ⟨plain, sees⟩
      have plain' : ∀ item ∈ items', item.renamesType = false :=
        fun item mem => plain item (fewer.subset mem)
      have parsed' := (legal'.parse?_eq_some_iff attributed closes.of_append binds).2
        ⟨plain', sees⟩
      rw [pieceSegments, pieceSegments, alone legal, alone legal', parsed, parsed']
      exact ⟨rfl, rfl⟩

/-- A type beside a renamed value, before code on the next line. -/
theorem rewrite_eq_iff_of_sublist_type :
    let head := "import d, \x7b type T, a as b \x7d from 'm'".toList
    let head' := "import d, \x7b a as b \x7d from 'm'".toList
    let after := "\nf(); g()".toList
    (∃ items, LegalHead ⟨some "d".toList, none, [⟨"a".toList, some "b".toList⟩]⟩
        (.type "T".toList none :: items) "'m'".toList head ∧
      LegalHead ⟨some "d".toList, none, [⟨"a".toList, some "b".toList⟩]⟩ items "'m'".toList
        head') ∧ ';' ∉ head ++ head' ∧
      rewrite (" ".toList ++ (head' ++ after)) = rewrite (" ".toList ++ (head ++ after)) ∧
      bindings (" ".toList ++ (head' ++ after)) = bindings (" ".toList ++ (head ++ after)) := by
  intro head head' after
  have space : isAllBlank [' '] = true := rfl
  have noBlank : isAllBlank [] = true := rfl
  have apart : [' '] ≠ [] := List.cons_ne_nil _ _
  have named : ∀ name ∈ ["d", "T", "a", "b"], IsName name.toList := by
    intro name mem
    simp only [List.mem_cons, List.not_mem_nil, or_false] at mem
    rcases mem with rfl | rfl | rfl | rfl <;> exact isName_of_all (by simp) (by decide)
  have quoted : IsQuoted "'m'".toList := takes_quoted_iff.1 fun _ => rfl
  have ends : ∀ cs, EndsName (' ' :: cs) := fun cs => endsName_cons.2 (by decide)
  have value : SpellsItem (.value ⟨"a".toList, some "b".toList⟩) "a as b".toList :=
    .renamed (.inl (named "a" (by simp))) space (fun _ => apart) space apart (named "b" (by simp))
  have type : SpellsItem (.type "T".toList none) "type T".toList :=
    .type space apart (named "T" (by simp)) (by decide)
  have legal : LegalHead _ _ "'m'".toList head := .mk space (ends _)
    (.both (named "d" (by simp)) noBlank space
      (.group (.more space type noBlank (.last space value space)) space)) space quoted
  have legal' : LegalHead _ _ "'m'".toList head' := .mk space (ends _)
    (.both (named "d" (by simp)) noBlank space (.group (.last space value space) space)) space
    quoted
  have free : ';' ∉ head ++ head' := by decide
  have followed : IsFollowed (trimEnd (after.takeWhile (· != ';'))) := by
    refine ⟨[], "\nf()".toList, rfl, .none, fun _ => rfl, fun _ => ?_⟩
    exact ⟨[], '\n', "f()".toList, rfl, List.forall_mem_nil _, .inl rfl⟩
  refine ⟨⟨_, legal, legal'⟩, free, ?_⟩
  apply (rewrite_eq_iff_of_sublist space legal legal' (List.sublist_cons_self _ _) rfl free
    after).2
  exact .inr ⟨by decide, followed⟩

/-- A type that gets another name keeps the value beside it from being bound. -/
theorem rewrite_ne_of_renamesType :
    let head := "import \x7b type A as B, c \x7d from 'm'".toList
    let head' := "import \x7b c \x7d from 'm'".toList
    (∃ items, LegalHead ⟨none, none, [⟨"c".toList, none⟩]⟩
        (.type "A".toList (some "B".toList) :: items) "'m'".toList head ∧
      LegalHead ⟨none, none, [⟨"c".toList, none⟩]⟩ items "'m'".toList head') ∧
      rewrite head' ≠ rewrite head ∧ bindings head' ≠ bindings head := by
  intro head head'
  have space : isAllBlank [' '] = true := rfl
  have noBlank : isAllBlank [] = true := rfl
  have apart : [' '] ≠ [] := List.cons_ne_nil _ _
  have named : ∀ name ∈ ["A", "B", "c"], IsName name.toList := by
    intro name mem
    simp only [List.mem_cons, List.not_mem_nil, or_false] at mem
    rcases mem with rfl | rfl | rfl <;> exact isName_of_all (by simp) (by decide)
  have quoted : IsQuoted "'m'".toList := takes_quoted_iff.1 fun _ => rfl
  have ends : ∀ cs, EndsName (' ' :: cs) := fun cs => endsName_cons.2 (by decide)
  have type : SpellsItem (.type "A".toList (some "B".toList)) "type A as B".toList :=
    .renamedType space apart (named "A" (by simp)) (by decide) space apart space apart
      (named "B" (by simp))
  have value : SpellsItem (.value ⟨"c".toList, none⟩) "c".toList := .name (named "c" (by simp))
  have legal : LegalHead _ _ "'m'".toList head := .mk space (ends _)
    (.names (.group (.more space type noBlank (.last space value space)) space)) space quoted
  have legal' : LegalHead _ _ "'m'".toList head' := .mk space (ends _)
    (.names (.group (.last space value space) space)) space quoted
  have refused : parse? (head ++ []) = none := legal.parse?_eq_none (by decide) []
  rw [List.append_nil] at refused
  obtain ⟨kept, unbound⟩ := rewrite_of_parse?_eq_none rfl (by decide) refused
  have nothing : OpensVisibly ([] : List Char).reverse := fun c mem => by cases mem
  have parsed : parse? head' = some ⟨⟨none, none, [⟨"c".toList, none⟩]⟩, "'m'".toList, [], []⟩ :=
    (legal'.parse?_eq_some_iff .none nothing rfl).2 ⟨by decide, fun _ => rfl, absurd rfl⟩
  have rewritten := rewrite_of_parse? parsed (by decide)
  have bound := bindings_of_parse? parsed (by decide)
  refine ⟨⟨_, legal, legal'⟩, ?_, ?_⟩
  · rw [rewritten, kept]
    decide
  · rw [bound, unbound]
    exact List.append_ne_nil_of_left_ne_nil (List.cons_ne_nil _ _) _

end Import

end ScriptConsole

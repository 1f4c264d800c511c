import ScriptConsole.Proofs.Import.Enclosed
import ScriptConsole.Proofs.Import.Grammar

/-!
# The entries of a group as they are written

A group may name types beside values.  A value is bound under its own name or under
another one, quoted text only under another one; a type binds nothing, whether or not
it gets another name.  The readers see the values of such a group and pass over its
types, except that a type with another name makes them refuse the group.
-/

namespace ScriptConsole.Import

open Text

/-- An entry of a group as it is written: one that binds a value, or one for a type. -/
inductive Item where
  | value (entry : Entry)
  | type (name : List Char) (rename : Option (List Char))
  deriving DecidableEq, Repr

namespace Item

def value? : Item → Option Entry
  | value entry => some entry
  | type _ _ => none

/-- Whether an entry gives a type another name. -/
def renamesType : Item → Bool
  | value _ => false
  | type _ rename => rename.isSome

end Item

/-- The texts of an entry. -/
inductive SpellsItem : Item → List Char → Prop where
  | name {name : List Char} (isName : IsName name) : SpellsItem (.value ⟨name, none⟩) name
  | renamed {exported gap gap' rename : List Char} (exports : IsName exported ∨ IsQuoted exported)
      (blank : isAllBlank gap = true) (apart : IsName exported → gap ≠ [])
      (blank' : isAllBlank gap' = true) (apart' : gap' ≠ []) (isName : IsName rename) :
      SpellsItem (.value ⟨exported, some rename⟩)
        (exported ++ (gap ++ ("as".toList ++ (gap' ++ rename))))
  | type {gap name : List Char} (blank : isAllBlank gap = true) (apart : gap ≠ [])
      (isName : IsName name) (notAs : name ≠ "as".toList) :
      SpellsItem (.type name none) ("type".toList ++ (gap ++ name))
  | renamedType {gap name gap' gap'' rename : List Char} (blank : isAllBlank gap = true)
      (apart : gap ≠ []) (isName : IsName name) (notAs : name ≠ "as".toList)
      (blank' : isAllBlank gap' = true) (apart' : gap' ≠ []) (blank'' : isAllBlank gap'' = true)
      (apart'' : gap'' ≠ []) (isName' : IsName rename) :
      SpellsItem (.type name (some rename))
        ("type".toList ++ (gap ++ (name ++ (gap' ++ ("as".toList ++ (gap'' ++ rename))))))

/-- The texts of a group after its opening bracket.  A comma may follow the last entry. -/
inductive SpellsItems : List Item → List Char → Prop where
  | close {gap : List Char} (blank : isAllBlank gap = true) : SpellsItems [] (gap ++ ['\x7d'])
  | last {gap text gap' : List Char} {item : Item} (blank : isAllBlank gap = true)
      (spells : SpellsItem item text) (blank' : isAllBlank gap' = true) :
      SpellsItems [item] (gap ++ (text ++ (gap' ++ ['\x7d'])))
  | more {gap text gap' rest : List Char} {item : Item} {items : List Item}
      (blank : isAllBlank gap = true) (spells : SpellsItem item text)
      (blank' : isAllBlank gap' = true) (further : SpellsItems items rest) :
      SpellsItems (item :: items) (gap ++ (text ++ (gap' ++ ',' :: rest)))

theorem isExportName_iff {text : List Char} :
    IsExportName text ↔ IsName text ∨ IsQuoted text :=
  or_congr_right takes_quoted_iff

/-! ## Groups that are read -/

theorem SpellsItem.spellsEntry {item : Item} {text : List Char} (spells : SpellsItem item text)
    (plain : item.renamesType = false) : SpellsEntry item.value? text := by
  cases spells with
  | name isName => exact .plain (.inl isName)
  | renamed exports blank apart blank' apart' isName =>
      exact .renamed (isExportName_iff.2 exports) blank apart blank' apart' isName
  | type blank apart isName notAs => exact .type blank apart isName notAs
  | renamedType => cases plain

theorem filterMap_value?_cons (item : Item) (items : List Item) :
    (item :: items).filterMap Item.value? =
      item.value?.toList ++ items.filterMap Item.value? := by
  cases item <;> rfl

theorem SpellsItems.spellsGroup {items : List Item} {text : List Char}
    (spells : SpellsItems items text) (plain : ∀ item ∈ items, item.renamesType = false) :
    SpellsGroup (items.filterMap Item.value?) text := by
  induction spells with
  | close blank => exact .close blank
  | @last gap text gap' item blank spells blank' =>
      rw [List.forall_mem_singleton] at plain
      have read := SpellsGroup.last blank (spells.spellsEntry plain) blank'
      rw [filterMap_value?_cons, List.filterMap_nil, List.append_nil]
      exact read
  | more blank spells blank' further ih =>
      rw [List.forall_mem_cons] at plain
      rw [filterMap_value?_cons]
      exact .more blank (spells.spellsEntry plain.1) blank' (ih plain.2)

/-- Whether every string of a group is bound under another name. -/
def BindsNames (entries : List Entry) : Prop :=
  ∀ entry ∈ entries, entry.rename = none → IsName entry.exported

theorem SpellsItem.bindsNames {item : Item} {text : List Char} (spells : SpellsItem item text) :
    BindsNames item.value?.toList := by
  cases spells with
  | name isName =>
      intro entry mem _
      obtain rfl := List.mem_singleton.1 mem
      exact isName
  | renamed =>
      intro entry mem unnamed
      obtain rfl := List.mem_singleton.1 mem
      cases unnamed
  | type => exact List.forall_mem_nil _
  | renamedType => exact List.forall_mem_nil _

theorem SpellsItems.bindsNames {items : List Item} {text : List Char}
    (spells : SpellsItems items text) : BindsNames (items.filterMap Item.value?) := by
  induction spells with
  | close => exact List.forall_mem_nil _
  | last blank spells blank' =>
      rw [filterMap_value?_cons, List.filterMap_nil, List.append_nil]
      exact spells.bindsNames
  | more blank spells blank' further ih =>
      rw [filterMap_value?_cons]
      exact List.forall_mem_append.2 ⟨spells.bindsNames, ih⟩

theorem exists_spellsItem {entry : Option Entry} {text : List Char}
    (spells : SpellsEntry entry text) (binds : BindsNames entry.toList) :
    ∃ item : Item, item.value? = entry ∧ item.renamesType = false ∧ SpellsItem item text := by
  cases spells with
  | plain exports => exact ⟨.value _, rfl, rfl, .name (binds _ (List.mem_singleton.2 rfl) rfl)⟩
  | renamed exports blank apart blank' apart' isName =>
      exact ⟨.value _, rfl, rfl,
        .renamed (isExportName_iff.1 exports) blank apart blank' apart' isName⟩
  | type blank apart isName notAs =>
      exact ⟨.type _ none, rfl, rfl, .type blank apart isName notAs⟩

/-- A group that is read is one of values and of types that are not renamed, if every
string of it is bound under another name. -/
theorem exists_spellsItems {entries : List Entry} {text : List Char}
    (spells : SpellsGroup entries text) (binds : BindsNames entries) :
    ∃ items : List Item, items.filterMap Item.value? = entries ∧
      (∀ item ∈ items, item.renamesType = false) ∧ SpellsItems items text := by
  induction spells with
  | close blank => exact ⟨[], rfl, List.forall_mem_nil _, .close blank⟩
  | last blank spells blank' =>
      obtain ⟨item, rfl, plain, spells⟩ := exists_spellsItem spells binds
      refine ⟨[item], ?_, List.forall_mem_singleton.2 plain, .last blank spells blank'⟩
      rw [filterMap_value?_cons, List.filterMap_nil, List.append_nil]
  | more blank spells blank' further ih =>
      obtain ⟨binds, bindsFurther⟩ := List.forall_mem_append.1 binds
      obtain ⟨item, rfl, plain, spells⟩ := exists_spellsItem spells binds
      obtain ⟨items, rfl, plainFurther, further⟩ := ih bindsFurther
      exact ⟨item :: items, filterMap_value?_cons item items,
        List.forall_mem_cons.2 ⟨plain, plainFurther⟩, .more blank spells blank' further⟩

/-! ## Groups that are refused -/

section Refused

variable {cs rest more : List Char} {entry : Option Entry}
  (notClose : (trimStart cs).head? ≠ some '\x7d')
  (hentry : entry? (trimStart cs) = some (entry, rest))

include notClose hentry

/-- An entry before anything but a comma or the closing bracket is refused. -/
theorem entries?_eq_none_of_entry {c : Char} (other : c ≠ ',' ∧ c ≠ '\x7d')
    (head : (trimStart rest).head? = some c) : entries? cs = none := by
  obtain ⟨after, opens⟩ := List.head?_eq_some_iff.1 head
  rw [entries?, if_neg notClose]
  split
  · rfl
  · rename_i entry' rest' h
    obtain ⟨rfl, rfl⟩ := Prod.mk.inj (Option.some.inj (hentry.symm.trans h))
    split
    · rename_i comma
      rw [opens] at comma
      exact absurd (List.cons.inj comma).1 other.1
    · rename_i closes
      rw [opens] at closes
      exact absurd (List.cons.inj closes).1 other.2
    · rfl

theorem entries?_eq_none_of_more (comma : trimStart rest = ',' :: more)
    (further : entries? more = none) : entries? cs = none := by
  rw [entries?, if_neg notClose]
  split
  · rfl
  · rename_i entry' rest' h
    obtain ⟨rfl, rfl⟩ := Prod.mk.inj (Option.some.inj (hentry.symm.trans h))
    split <;> simp_all

end Refused

theorem SpellsItem.exists_rest {item : Item} {text : List Char} (spells : SpellsItem item text)
    (renames : item.renamesType = true) (cs : List Char) :
    ∃ rest, entry? (text ++ cs) = some (none, rest) ∧ (trimStart rest).head? = some 'a' := by
  cases spells with
  | name => cases renames
  | renamed => cases renames
  | type => cases renames
  | @renamedType gap name gap' gap'' rename blank apart isName notAs blank' apart' =>
      have read := entry?_of_type blank apart isName notAs
        (endsName_append_of_ne_nil blank' apart' ("as".toList ++ (gap'' ++ (rename ++ cs))))
      have trimmed := trimStart_append_of_opensVisibly blank'
        (opensVisibly_as (gap'' ++ (rename ++ cs)))
      refine ⟨_, ?_, congrArg List.head? trimmed⟩
      simpa only [List.append_assoc] using read

/-- Blanks before an entry are dropped, and it does not close its group. -/
theorem SpellsItem.trimStart_append {item : Item} {text gap : List Char}
    (spells : SpellsItem item text) (blank : isAllBlank gap = true) (cs : List Char) :
    trimStart (gap ++ (text ++ cs)) = text ++ cs ∧ (text ++ cs).head? ≠ some '\x7d' := by
  have opens : ∃ exported more, IsExportName exported ∧ text = exported ++ more := by
    cases spells with
    | name isName => exact ⟨_, [], .inl isName, (List.append_nil _).symm⟩
    | renamed exports => exact ⟨_, _, isExportName_iff.2 exports, rfl⟩
    | type => exact ⟨_, _, .inl isName_type, rfl⟩
    | renamedType => exact ⟨_, _, .inl isName_type, rfl⟩
  obtain ⟨exported, more, exports, rfl⟩ := opens
  rw [List.append_assoc]
  exact ⟨trimStart_append_of_opensVisibly blank (exports.opensVisibly _),
    exports.head?_ne_brace _⟩

theorem SpellsItems.entries?_eq_none {items : List Item} {text : List Char}
    (spells : SpellsItems items text) (renames : ∃ item ∈ items, item.renamesType = true)
    (cs : List Char) : entries? (text ++ cs) = none := by
  induction spells with
  | close =>
      obtain ⟨item, mem, -⟩ := renames
      cases mem
  | @last gap text gap' item blank spells blank' =>
      obtain ⟨other, mem, renames⟩ := renames
      obtain rfl := List.mem_singleton.1 mem
      obtain ⟨trimmed, notClose⟩ := spells.trimStart_append blank (gap' ++ '\x7d' :: cs)
      obtain ⟨rest, hentry, head⟩ := spells.exists_rest renames (gap' ++ '\x7d' :: cs)
      simp only [List.append_assoc, List.cons_append, List.nil_append]
      rw [← trimmed] at notClose hentry
      exact entries?_eq_none_of_entry notClose hentry (by decide) head
  | @more gap text gap' rest item items blank spells blank' further ih =>
      obtain ⟨trimmed, notClose⟩ := spells.trimStart_append blank (gap' ++ ',' :: (rest ++ cs))
      simp only [List.append_assoc, List.cons_append]
      rw [← trimmed] at notClose
      cases renamed : item.renamesType with
      | true =>
          obtain ⟨after, hentry, head⟩ :=
            spells.exists_rest renamed (gap' ++ ',' :: (rest ++ cs))
          rw [← trimmed] at hentry
          exact entries?_eq_none_of_entry notClose hentry (by decide) head
      | false =>
          obtain ⟨other, mem, renames⟩ := renames
          have later : other ∈ items := by
            rcases List.mem_cons.1 mem with rfl | mem
            · rw [renamed] at renames
              cases renames
            · exact mem
          obtain ⟨after, hentry, comma⟩ := exists_entry?_of_spells (spells.spellsEntry renamed)
            blank' divides_comma (rest ++ cs)
          rw [← trimmed] at hentry
          exact entries?_eq_none_of_more notClose hentry comma (ih ⟨other, later, renames⟩)

end ScriptConsole.Import

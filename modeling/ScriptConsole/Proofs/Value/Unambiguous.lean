import ScriptConsole.Proofs.Token.Literals
import ScriptConsole.Proofs.Token.Scanning
import ScriptConsole.Proofs.Value.Held

/-!
# Values read off their texts

A value without numbers, functions and promises can be read off its text, if no array or
object in it collapses.  The text is recognised from its front: its first character tells
the kind of value, and no text of a value goes on as another one.  A string in quotes is a
single token.
-/

namespace ScriptConsole.Value

/-! ## Quoted text -/

theorem quoted_flatMap_quoteChar (text : List Char) :
    Nested.Quoted '\'' (text.flatMap quoteChar) := by
  induction text with
  | nil => exact .nil
  | cons c cs ih =>
      rw [List.flatMap_cons, quoteChar]
      split
      · exact .escaped _ ih
      split
      · exact .escaped _ ih
      split
      · exact .escaped _ ih
      · rename_i notEscape notQuote notBreak
        exact .plain ⟨notEscape, notQuote, notBreak⟩ ih

theorem read_quote (text rest : List Char) :
    Nested.read [.quoted '\''] (text.flatMap quoteChar ++ '\'' :: rest) =
      ⟨text.flatMap quoteChar ++ ['\''], rest, true⟩ :=
  (quoted_flatMap_quoteChar text).read_eq (.inl rfl) (.inl rfl) rest

theorem ofSource_quote (text : List Char) :
    Scan.ofSource (quote text) = ⟨[⟨.string, [], quote text⟩], []⟩ := by
  have gap : Trivia.split .between (quote text) = ([], quote text) := rfl
  have read : Lexeme.read none '\'' (text.flatMap quoteChar ++ ['\'']) =
      ⟨.string, text.flatMap quoteChar ++ ['\''], []⟩ := by
    have noName : Lexeme.opensIdentifier '\'' (text.flatMap quoteChar ++ ['\'']) = false := rfl
    have noNumber : Lexeme.opensNumber '\'' (text.flatMap quoteChar ++ ['\'']) = false := rfl
    rw [Lexeme.read, noName, noNumber, read_quote]
    rfl
  have nothing : Scan.after (some ⟨.string, [], quote text⟩) [] = ⟨[], []⟩ :=
    Scan.after_of_split_eq_nil rfl _
  rw [Scan.ofSource, Scan.after_of_split_eq_cons gap none read]
  exact congrArg (fun scan : Scan => { scan with tokens := ⟨.string, [], quote text⟩ :: scan.tokens })
    nothing

theorem quoteChar_append_inj {c d : Char} {cs ds : List Char}
    (same : quoteChar c ++ cs = quoteChar d ++ ds) : c = d ∧ cs = ds := by
  unfold quoteChar at same
  grind

theorem flatMap_quoteChar_inj {text text' : List Char}
    (same : text.flatMap quoteChar = text'.flatMap quoteChar) : text = text' := by
  have ne_nil (c : Char) (cs : List Char) : quoteChar c ++ cs ≠ [] := by
    unfold quoteChar
    grind
  induction text generalizing text' with
  | nil =>
      cases text' with
      | nil => rfl
      | cons d ds => exact absurd same.symm (ne_nil d _)
  | cons c cs ih =>
      cases text' with
      | nil => exact absurd same (ne_nil c _)
      | cons d ds =>
          obtain ⟨rfl, rest⟩ := quoteChar_append_inj same
          rw [ih rest]

theorem quote_append_inj {text text' rest rest' : List Char}
    (same : quote text ++ rest = quote text' ++ rest') : text = text' ∧ rest = rest' := by
  simp only [quote, List.cons_append, List.append_assoc, List.cons.injEq, true_and,
    List.nil_append] at same
  have read := congrArg (Nested.read [.quoted '\'']) same
  rw [read_quote, read_quote, Nested.Reading.mk.injEq] at read
  exact ⟨flatMap_quoteChar_inj (List.append_cancel_right read.1), read.2.1⟩

/-! ## Keys -/

theorem forall_isIdentContinue_of_isPlainKey {key : List Char} (plain : isPlainKey key = true) :
    ∀ c ∈ key, Text.isIdentContinue c = true := by
  cases key with
  | nil => cases plain
  | cons c cs =>
      rw [isPlainKey, Bool.and_eq_true, List.all_eq_true] at plain
      rw [List.forall_mem_cons]
      exact ⟨Text.isIdentContinue_of_isIdentStart plain.1, plain.2⟩

theorem append_ne_quote_append {key text : List Char} (plain : isPlainKey key = true)
    (rest rest' : List Char) : key ++ rest ≠ quote text ++ rest' := by
  cases key with
  | nil => cases plain
  | cons c cs =>
      intro same
      obtain rfl : c = '\'' := (List.cons.inj same).1
      rw [isPlainKey, Bool.and_eq_true] at plain
      cases plain.1

theorem showKey_append_inj {key key' rest rest' : List Char}
    (same : showKey key ++ ':' :: rest = showKey key' ++ ':' :: rest') :
    key = key' ∧ rest = rest' := by
  unfold showKey at same
  split at same <;> split at same
  · rename_i plain plain'
    have stop (rest : List Char) : ∀ c ∈ (':' :: rest).head?, Text.isIdentContinue c = false := by
      rintro c ⟨⟩
      decide
    have left := takeWhile_append_of_head? (forall_isIdentContinue_of_isPlainKey plain) (stop rest)
    have right :=
      takeWhile_append_of_head? (forall_isIdentContinue_of_isPlainKey plain') (stop rest')
    rw [same] at left
    exact ⟨left.1.symm.trans right.1, (List.cons.inj (left.2.symm.trans right.2)).2⟩
  · rename_i plain quoted
    exact absurd same (append_ne_quote_append plain _ _)
  · rename_i quoted plain
    exact absurd same.symm (append_ne_quote_append plain _ _)
  · obtain ⟨keys, rests⟩ := quote_append_inj same
    exact ⟨keys, (List.cons.inj rests).2⟩

/-! ## Lists of texts -/

/-- An entry that can be told from its text, whatever follows, among those of a kind. -/
def ToldBy {α : Type} (kind : α → Prop) (shown shown' : α → Option (List Char)) (entry : α) :
    Prop :=
  ∀ {entry' : α} {text text' rest rest' : List Char}, kind entry' → shown entry = some text →
    shown' entry' = some text' → text ++ rest = text' ++ rest' → entry = entry' ∧ rest = rest'

section Lists

variable {α : Type} {kind : α → Prop} {shown shown' : α → Option (List Char)}
  {text text' rest rest' : List Char}

theorem exists_of_following_cons {entry : α} {entries : List α}
    (isShown : following shown (entry :: entries) = some text) :
    ∃ first more, shown entry = some first ∧ following shown entries = some more ∧
      text = ',' :: ' ' :: (first ++ more) := by
  obtain ⟨first, isFirst, isShown⟩ := Option.bind_eq_some_iff.1 isShown
  obtain ⟨more, isMore, isShown⟩ := Option.bind_eq_some_iff.1 isShown
  exact ⟨first, more, isFirst, isMore, (Option.some.inj isShown).symm⟩

theorem exists_of_enclosed_cons {opening closing : Char} {entry : α} {entries : List α}
    (isShown : enclosed opening closing shown (entry :: entries) = some text) :
    ∃ first more, shown entry = some first ∧ following shown entries = some more ∧
      text = opening :: ' ' :: (first ++ (more ++ [' ', closing])) := by
  obtain ⟨first, isFirst, isShown⟩ := Option.bind_eq_some_iff.1 isShown
  obtain ⟨more, isMore, isShown⟩ := Option.bind_eq_some_iff.1 isShown
  exact ⟨first, more, isFirst, isMore, (Option.some.inj isShown).symm⟩

theorem following_append_inj {entries entries' : List α}
    (told : ∀ entry ∈ entries, ToldBy kind shown shown' entry)
    (kinds : ∀ entry ∈ entries', kind entry)
    (isShown : following shown entries = some text)
    (isShown' : following shown' entries' = some text')
    (same : text ++ ' ' :: rest = text' ++ ' ' :: rest') : entries = entries' ∧ rest = rest' := by
  induction entries generalizing entries' text text' with
  | nil =>
      obtain rfl := Option.some.inj isShown
      cases entries' with
      | nil =>
          obtain rfl := Option.some.inj isShown'
          exact ⟨rfl, (List.cons.inj same).2⟩
      | cons entry' entries' =>
          obtain ⟨first', more', -, -, rfl⟩ := exists_of_following_cons isShown'
          cases same
  | cons entry entries ih =>
      obtain ⟨first, more, isFirst, isMore, rfl⟩ := exists_of_following_cons isShown
      cases entries' with
      | nil =>
          obtain rfl := Option.some.inj isShown'
          cases same
      | cons entry' entries' =>
          obtain ⟨first', more', isFirst', isMore', rfl⟩ := exists_of_following_cons isShown'
          rw [List.forall_mem_cons] at told kinds
          simp only [List.cons_append, List.append_assoc, List.cons.injEq, true_and] at same
          obtain ⟨rfl, same⟩ := told.1 kinds.1 isFirst isFirst' same
          obtain ⟨rfl, same⟩ := ih told.2 kinds.2 isMore isMore' same
          exact ⟨rfl, same⟩

theorem enclosed_append_inj {opening closing : Char} (visible : closing ≠ ' ')
    {entries entries' : List α} (told : ∀ entry ∈ entries, ToldBy kind shown shown' entry)
    (kinds : ∀ entry ∈ entries', kind entry)
    (isShown : enclosed opening closing shown entries = some text)
    (isShown' : enclosed opening closing shown' entries' = some text')
    (same : text ++ rest = text' ++ rest') : entries = entries' ∧ rest = rest' := by
  cases entries with
  | nil =>
      obtain rfl := Option.some.inj isShown
      cases entries' with
      | nil =>
          obtain rfl := Option.some.inj isShown'
          exact ⟨rfl, List.append_cancel_left same⟩
      | cons entry' entries' =>
          obtain ⟨first', more', -, -, rfl⟩ := exists_of_enclosed_cons isShown'
          exact absurd (List.cons.inj (List.cons.inj same).2).1 visible
  | cons entry entries =>
      obtain ⟨first, more, isFirst, isMore, rfl⟩ := exists_of_enclosed_cons isShown
      cases entries' with
      | nil =>
          obtain rfl := Option.some.inj isShown'
          exact absurd (List.cons.inj (List.cons.inj same).2).1.symm visible
      | cons entry' entries' =>
          obtain ⟨first', more', isFirst', isMore', rfl⟩ := exists_of_enclosed_cons isShown'
          rw [List.forall_mem_cons] at told kinds
          simp only [List.cons_append, List.append_assoc, List.nil_append, List.cons.injEq,
            true_and] at same
          obtain ⟨rfl, same⟩ := told.1 kinds.1 isFirst isFirst' same
          obtain ⟨rfl, same⟩ := following_append_inj told.2 kinds.2 isMore isMore' same
          exact ⟨rfl, (List.cons.inj same).2⟩

end Lists

/-! ## Values -/

/-- Values that are written out in full: those without numbers, functions and promises. -/
inductive Literal : Value → Prop where
  | undefined : Literal .undefined
  | null : Literal .null
  | bool (value : Bool) : Literal (.bool value)
  | string (text : String) : Literal (.string text)
  | array {items : List Value} (literal : ∀ item ∈ items, Literal item) :
      Literal (.array items)
  | object {fields : List (String × Value)} (literal : ∀ entry ∈ fields, Literal entry.2) :
      Literal (.object fields)

/-- Neither colours nor a greatest depth. -/
def View.unlimited : View :=
  ⟨.plain, none⟩

section Showing

variable {shown shown' : Nat → Nat → Option (List Char)} {level : Nat} {text : List Char}

theorem showEntries_unlimited {α : Type} {word : String} {opening closing : Char}
    {shown : α → Option (List Char)} {entries : List α} :
    showEntries .unlimited level word opening closing shown entries =
      enclosed opening closing shown entries := rfl

theorem toldBy_showField {entry : String × Value}
    (told : ToldBy Literal (showWith .unlimited shown level) (showWith .unlimited shown' level)
      entry.2) :
    ToldBy (fun entry => Literal entry.2) (showField (showWith .unlimited shown level))
      (showField (showWith .unlimited shown' level)) entry := by
  intro entry' text text' rest rest' literal isShown isShown' same
  obtain ⟨own, isOwn, rfl⟩ := Option.map_eq_some_iff.1 isShown
  obtain ⟨own', isOwn', rfl⟩ := Option.map_eq_some_iff.1 isShown'
  rw [List.append_assoc, List.append_assoc] at same
  obtain ⟨keys, same⟩ := showKey_append_inj same
  obtain ⟨values, same⟩ := told literal isOwn isOwn' (List.cons.inj same).2
  exact ⟨Prod.ext (String.toList_inj.1 keys) values, same⟩

/-- The character that opens the text of a literal. -/
def mark : Value → Char
  | undefined => 'u'
  | null => 'n'
  | bool true => 't'
  | bool false => 'f'
  | string _ => '\''
  | array _ => '['
  | object _ => '\x7b'
  | number _ | function _ | promise _ => '?'

theorem Literal.head?_eq {value : Value} (literal : Literal value)
    (isShown : showWith .unlimited shown level value = some text) :
    text.head? = some value.mark := by
  have opens {α : Type} {opening closing : Char} {shown : α → Option (List Char)}
      {entries : List α} (isShown : enclosed opening closing shown entries = some text) :
      text.head? = some opening := by
    cases entries with
    | nil => rw [← Option.some.inj isShown]; rfl
    | cons entry entries =>
        obtain ⟨first, more, -, -, rfl⟩ := exists_of_enclosed_cons isShown
        rfl
  cases literal with
  | undefined | null | string _ => rw [← Option.some.inj isShown]; rfl
  | bool value => cases value <;> (rw [← Option.some.inj isShown]; rfl)
  | array items =>
      rw [showWith_array, showEntries_unlimited] at isShown
      exact opens isShown
  | object fields =>
      rw [showWith_object, showEntries_unlimited] at isShown
      exact opens isShown

end Showing

inductive OpensAlike : Value → Value → Prop where
  | undefined : OpensAlike .undefined .undefined
  | null : OpensAlike .null .null
  | bool (value : Bool) : OpensAlike (.bool value) (.bool value)
  | string (text text' : String) : OpensAlike (.string text) (.string text')
  | array (items items' : List Value) : OpensAlike (.array items) (.array items')
  | object (fields fields' : List (String × Value)) : OpensAlike (.object fields) (.object fields')

theorem Literal.opensAlike {value value' : Value} (literal : Literal value) (literal' : Literal value')
    (same : value.mark = value'.mark) : OpensAlike value value' := by
  cases literal with
  | bool value =>
      cases literal' with
      | bool value' => cases value <;> cases value' <;> first | exact .bool _ | cases same
      | _ => cases value <;> cases same
  | _ =>
      cases literal' with
      | bool value' => cases value' <;> cases same
      | _ => first | constructor | cases same

theorem Literal.opensAlike_of_append {value value' : Value}
    {shown shown' : Nat → Nat → Option (List Char)} {level : Nat}
    {text text' rest rest' : List Char} (literal : Literal value) (literal' : Literal value')
    (isShown : showWith .unlimited shown level value = some text)
    (isShown' : showWith .unlimited shown' level value' = some text')
    (same : text ++ rest = text' ++ rest') : OpensAlike value value' := by
  refine literal.opensAlike literal' (Option.some.inj ?_)
  have heads := congrArg List.head? same
  rwa [List.head?_append, List.head?_append, literal.head?_eq isShown, literal'.head?_eq isShown',
    Option.some_or, Option.some_or] at heads

theorem Literal.toldBy {value : Value} (literal : Literal value)
    (shown shown' : Nat → Nat → Option (List Char)) (level : Nat) :
    ToldBy Literal (showWith .unlimited shown level) (showWith .unlimited shown' level) value := by
  induction literal generalizing level with
  | undefined =>
      intro value' text text' rest rest' literal' isShown isShown' same
      cases Literal.undefined.opensAlike_of_append literal' isShown isShown' same
      obtain rfl : text = text' := Option.some.inj (isShown.symm.trans isShown')
      exact ⟨rfl, List.append_cancel_left same⟩
  | null =>
      intro value' text text' rest rest' literal' isShown isShown' same
      cases Literal.null.opensAlike_of_append literal' isShown isShown' same
      obtain rfl : text = text' := Option.some.inj (isShown.symm.trans isShown')
      exact ⟨rfl, List.append_cancel_left same⟩
  | bool value =>
      intro value' text text' rest rest' literal' isShown isShown' same
      cases (Literal.bool value).opensAlike_of_append literal' isShown isShown' same
      obtain rfl : text = text' := Option.some.inj (isShown.symm.trans isShown')
      exact ⟨rfl, List.append_cancel_left same⟩
  | string value =>
      intro value' text text' rest rest' literal' isShown isShown' same
      cases (Literal.string value).opensAlike_of_append literal' isShown isShown' same
      rw [← Option.some.inj isShown, ← Option.some.inj isShown'] at same
      obtain ⟨texts, same⟩ := quote_append_inj same
      exact ⟨congrArg Value.string (String.toList_inj.1 texts), same⟩
  | @array items literal ih =>
      intro value' text text' rest rest' literal' isShown isShown' same
      cases (Literal.array literal).opensAlike_of_append literal' isShown isShown' same
      cases literal' with
      | array literal' =>
          rw [showWith_array, showEntries_unlimited] at isShown isShown'
          obtain ⟨rfl, same⟩ := enclosed_append_inj (by decide)
            (fun item mem => ih item mem (level + 1)) literal' isShown isShown' same
          exact ⟨rfl, same⟩
  | @object fields literal ih =>
      intro value' text text' rest rest' literal' isShown isShown' same
      cases (Literal.object literal).opensAlike_of_append literal' isShown isShown' same
      cases literal' with
      | object literal' =>
          rw [showWith_object, showEntries_unlimited] at isShown isShown'
          obtain ⟨rfl, same⟩ := enclosed_append_inj (by decide)
            (fun entry mem => toldBy_showField (ih entry mem (level + 1))) literal' isShown isShown'
            same
          exact ⟨rfl, same⟩

/-! ## Inspecting -/

theorem Literal.of_holds {promises : Promises} {value part : Value} (literal : Literal value)
    (holds : Holds promises value part) : Literal part := by
  cases literal with
  | array literal =>
      cases holds with
      | item mem => exact literal _ mem
  | object literal =>
      cases holds with
      | field mem => exact literal _ mem
  | _ => cases holds

theorem Literal.of_reaches {promises : Promises} {value part : Value} (literal : Literal value)
    (reaches : Reaches promises value part) : Literal part := by
  induction reaches with
  | refl => exact literal
  | tail _ holds ih => exact ih.of_holds holds

/-- A literal always has a text, since there is no promise in it. -/
theorem Literal.exists_inspect? {value : Value} (literal : Literal value) (promises : Promises)
    (view : View) : ∃ text, inspect? view promises value = some text := by
  refine exists_inspect?_of_acyclic (fun identity reaches => ?_) view
  cases literal.of_reaches reaches

theorem toList_inspect {view : View} {promises : Promises} {value : Value} {text : List Char}
    (isShown : inspect? view promises value = some text) :
    (inspect view promises value).toList = text := by
  rw [inspect, isShown, Option.getD_some, String.toList_ofList]

/-- Inspection without a greatest depth is unambiguous: values without numbers, functions and
promises that have the same text are the same, and a string is shown as a single token. -/
theorem eq_of_inspect_eq (promises : Promises) :
    (∀ value value' : Value, Literal value → Literal value' →
      inspect .unlimited promises value = inspect .unlimited promises value' → value = value') ∧
    ∀ text : String,
      Scan.ofSource (inspect .unlimited promises (.string text)).toList =
        ⟨[⟨.string, [], (inspect .unlimited promises (.string text)).toList⟩], []⟩ := by
  constructor
  · intro value value' literal literal' same
    obtain ⟨text, isShown⟩ := literal.exists_inspect? promises .unlimited
    obtain ⟨text', isShown'⟩ := literal'.exists_inspect? promises .unlimited
    have texts : text ++ [] = text' ++ [] := by
      rw [← toList_inspect isShown, same, toList_inspect isShown']
    exact (literal.toldBy _ _ 0 literal' isShown isShown' texts).1
  · intro text
    have isShown : inspect? .unlimited promises (.string text) = some (quote text.toList) := rfl
    rw [toList_inspect isShown]
    exact ofSource_quote text.toList

/-- Nothing else is shown as this object, in which a quote, a line break and a key are escaped. -/
theorem eq_of_inspect_eq_nested :
    ∃ value, value = .object [("a", .array [.string "it's\n", .null]), ("b c", .object [])] ∧
      Literal value ∧
      inspect .unlimited .empty value =
        "\x7b a: [ 'it\\'s\\n', null ], 'b c': \x7b\x7d \x7d" ∧
      ∀ other, Literal other →
        inspect .unlimited .empty other =
          "\x7b a: [ 'it\\'s\\n', null ], 'b c': \x7b\x7d \x7d" → other = value := by
  have array : Literal (.array [.string "it's\n", .null]) :=
    .array (by simp [Literal.string, Literal.null])
  have literal :
      Literal (.object [("a", .array [.string "it's\n", .null]), ("b c", .object [])]) :=
    .object (by simp [array, Literal.object])
  have text : inspect .unlimited .empty
      (.object [("a", .array [.string "it's\n", .null]), ("b c", .object [])]) =
        "\x7b a: [ 'it\\'s\\n', null ], 'b c': \x7b\x7d \x7d" := by
    decide +kernel
  refine ⟨_, rfl, literal, text, fun other isLiteral same => ?_⟩
  exact (eq_of_inspect_eq .empty).1 other _ isLiteral literal (same.trans text.symm)

end ScriptConsole.Value

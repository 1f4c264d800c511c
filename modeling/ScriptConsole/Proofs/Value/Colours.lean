import Mathlib.Data.Option.Basic
import ScriptConsole.Proofs.Text.Escape
import ScriptConsole.Proofs.Value.Held

/-!
# Values in colours

The pieces of a text in colours are stripped one by one, since neither paint nor text
without the escape character completes an escape sequence.  So a value that is shown in
colours reads, once it is stripped, as it is shown without.
-/

namespace ScriptConsole

/-! ## Texts without the escape character -/

/-- A text in which no escape sequence begins. -/
def EscapeFree (text : List Char) : Prop :=
  '\x1b' ∉ text

instance (text : List Char) : Decidable (EscapeFree text) :=
  inferInstanceAs (Decidable ('\x1b' ∉ text))

namespace EscapeFree

theorem append {left right : List Char} (free : EscapeFree left) (free' : EscapeFree right) :
    EscapeFree (left ++ right) := by
  rw [EscapeFree, List.mem_append, not_or]
  exact ⟨free, free'⟩

theorem cons {c : Char} {cs : List Char} (other : c ≠ '\x1b') (free : EscapeFree cs) :
    EscapeFree (c :: cs) := by
  rw [EscapeFree, List.mem_cons, not_or]
  exact ⟨other.symm, free⟩

theorem of_sublist {part text : List Char} (free : EscapeFree text) (sublist : part.Sublist text) :
    EscapeFree part :=
  fun escape => free (sublist.mem escape)

end EscapeFree

namespace Number

theorem escapeFree_digitChars (n : Nat) : EscapeFree (digitChars n) := by
  intro escape
  have digit := Nat.isDigit_of_mem_toDigits (by decide) (by decide) escape
  exact absurd digit (by decide)

theorem escapeFree_positional {digits : List Char} (free : EscapeFree digits) (point : Int) :
    EscapeFree (positional digits point) := by
  have zeros (count : Nat) : EscapeFree (List.replicate count '0') := by
    intro escape
    cases List.eq_of_mem_replicate escape
  unfold positional
  split
  · exact .cons (by decide) (.cons (by decide) ((zeros _).append free))
  split
  · exact free.append (zeros _)
  · exact (free.of_sublist (List.take_sublist _ _)).append
      (.cons (by decide) (free.of_sublist (List.drop_sublist _ _)))

theorem escapeFree_scientific {digits : List Char} (free : EscapeFree digits) (point : Int) :
    EscapeFree (scientific digits point) := by
  have power : EscapeFree ('e' :: '+' :: digitChars (point - 1).toNat) :=
    .cons (by decide) (.cons (by decide) (escapeFree_digitChars _))
  match digits with
  | [] => exact power
  | [digit] => exact free.append power
  | digit :: next :: more =>
      have first : EscapeFree [digit] := free.of_sublist (by simp)
      have others : EscapeFree (next :: more) := free.of_sublist (List.sublist_cons_self _ _)
      exact (first.append (.cons (by decide) others)).append power

theorem escapeFree_magnitude (magnitude : Magnitude) : EscapeFree magnitude.text := by
  unfold Magnitude.text
  dsimp only
  split
  · exact escapeFree_digitChars _
  split
  · exact escapeFree_scientific (escapeFree_digitChars _) _
  · exact escapeFree_positional (escapeFree_digitChars _) _

theorem escapeFree_text (number : Number) : EscapeFree number.text := by
  unfold text
  split
  · decide
  refine EscapeFree.append ?_ ?_
  · split <;> decide
  · split
    · decide
    · exact escapeFree_magnitude _

end Number

namespace Value

theorem escapeFree_quote {text : List Char} (free : EscapeFree text) : EscapeFree (quote text) := by
  have escapes : EscapeFree (text.flatMap quoteChar) := by
    intro escape
    obtain ⟨c, mem, quoted⟩ := List.mem_flatMap.1 escape
    unfold quoteChar at quoted
    split at quoted
    · exact absurd quoted (by decide)
    split at quoted
    · exact absurd quoted (by decide)
    split at quoted
    · exact absurd quoted (by decide)
    · obtain rfl := List.mem_singleton.1 quoted
      exact free mem
  exact .cons (by decide) (escapes.append (by decide))

theorem escapeFree_showKey {key : List Char} (free : EscapeFree key) :
    EscapeFree (showKey key) := by
  unfold showKey
  split
  · exact free
  · exact escapeFree_quote free

theorem escapeFree_label {function : Function} (free : EscapeFree function.name.toList) :
    EscapeFree function.label.toList := by
  unfold Function.label
  split
  · decide
  · rw [String.toList_append, String.toList_append]
    exact (EscapeFree.append (by decide) free).append (by decide)

/-! ## What is stripped piece by piece -/

/-- A text in colours that reads as a plain one wherever it stands. -/
def StripsTo (coloured plain : List Char) : Prop :=
  ∀ rest, Text.stripEscapes (coloured ++ rest) = plain ++ Text.stripEscapes rest

namespace StripsTo

theorem append {coloured coloured' plain plain' : List Char} (first : StripsTo coloured plain)
    (second : StripsTo coloured' plain') : StripsTo (coloured ++ coloured') (plain ++ plain') := by
  intro rest
  rw [List.append_assoc, first, second, List.append_assoc]

theorem of_escapeFree {text : List Char} (free : EscapeFree text) : StripsTo text text :=
  Text.stripEscapes_append_of_not_mem free

theorem paint {text : List Char} (free : EscapeFree text) (style : Style) :
    StripsTo ((⟨true⟩ : Palette).paintChars style text) (Palette.plain.paintChars style text) := by
  intro rest
  rw [Text.stripEscapes_paintChars_append, Text.stripEscapes_of_not_mem free,
    Palette.paintChars_plain]

theorem stripEscapes_eq {coloured plain : List Char} (strips : StripsTo coloured plain) :
    Text.stripEscapes coloured = plain := by
  have whole := strips []
  rwa [List.append_nil, Text.stripEscapes, List.append_nil] at whole

end StripsTo

/-- Two texts that are both missing, or of which the first is stripped to the second. -/
abbrev BothStrip : Option (List Char) → Option (List Char) → Prop :=
  Option.Rel StripsTo

theorem BothStrip.map_stripEscapes {text text' : Option (List Char)} (both : BothStrip text text') :
    text.map Text.stripEscapes = text' := by
  cases both with
  | none => rfl
  | some strips => exact congrArg some strips.stripEscapes_eq

theorem BothStrip.map {text text' : Option (List Char)} (both : BothStrip text text')
    {frame frame' : List Char → List Char}
    (frames : ∀ {coloured plain}, StripsTo coloured plain →
      StripsTo (frame coloured) (frame' plain)) :
    BothStrip (text.map frame) (text'.map frame') := by
  cases both with
  | none => exact .none
  | some strips => exact .some (frames strips)

theorem BothStrip.bind_bind {first first' rest rest' : Option (List Char)}
    (firsts : BothStrip first first') (rests : BothStrip rest rest')
    {join join' : List Char → List Char → List Char}
    (joins : ∀ {coloured coloured' plain plain'}, StripsTo coloured plain →
      StripsTo coloured' plain' → StripsTo (join coloured coloured') (join' plain plain')) :
    BothStrip (first.bind fun text => rest.bind fun more => some (join text more))
      (first'.bind fun text => rest'.bind fun more => some (join' text more)) := by
  cases firsts with
  | none => exact .none
  | some strips =>
      cases rests with
      | none => exact .none
      | some strips' => exact .some (joins strips strips')

theorem BothStrip.ite {first first' second second' : Option (List Char)} (condition : Bool)
    (firsts : BothStrip first first') (seconds : BothStrip second second') :
    BothStrip (if condition then first else second) (if condition then first' else second') := by
  cases condition with
  | true => exact firsts
  | false => exact seconds

section Entries

variable {α : Type} {shown shown' : α → Option (List Char)} {entries : List α}

theorem BothStrip.following
    (each : ∀ entry ∈ entries, BothStrip (shown entry) (shown' entry)) :
    BothStrip (following shown entries) (following shown' entries) := by
  induction entries with
  | nil => exact .some (.of_escapeFree (by decide))
  | cons entry entries ih =>
      rw [List.forall_mem_cons] at each
      have comma : StripsTo [',', ' '] [',', ' '] := .of_escapeFree (by decide)
      exact each.1.bind_bind (ih each.2) fun first rest => comma.append (first.append rest)

theorem BothStrip.enclosed {opening closing : Char} (free : opening ≠ '\x1b')
    (free' : closing ≠ '\x1b')
    (each : ∀ entry ∈ entries, BothStrip (shown entry) (shown' entry)) :
    BothStrip (enclosed opening closing shown entries) (enclosed opening closing shown' entries) := by
  have last : EscapeFree [closing] := .cons free' List.not_mem_nil
  cases entries with
  | nil => exact .some (.of_escapeFree (.cons free last))
  | cons entry entries =>
      rw [List.forall_mem_cons] at each
      have before : StripsTo [opening, ' '] [opening, ' '] :=
        .of_escapeFree (.cons free (by decide))
      have after : StripsTo [' ', closing] [' ', closing] :=
        .of_escapeFree (.cons (by decide) last)
      exact each.1.bind_bind (.following each.2) fun first rest =>
        before.append (first.append (rest.append after))

theorem BothStrip.showEntries {depth : Option Nat} {level : Nat} {word : String}
    {opening closing : Char} (freeWord : EscapeFree word.toList) (free : opening ≠ '\x1b')
    (free' : closing ≠ '\x1b')
    (each : ∀ entry ∈ entries, BothStrip (shown entry) (shown' entry)) :
    BothStrip (showEntries ⟨⟨true⟩, depth⟩ level word opening closing shown entries)
      (showEntries ⟨.plain, depth⟩ level word opening closing shown' entries) :=
  .ite _ (.some (.paint freeWord _)) (.enclosed free free' each)

theorem BothStrip.showField {shown shown' : Value → Option (List Char)} {entry : String × Value}
    (free : EscapeFree entry.1.toList) (both : BothStrip (shown entry.2) (shown' entry.2)) :
    BothStrip (showField shown entry) (showField shown' entry) := by
  have key := StripsTo.of_escapeFree (escapeFree_showKey free)
  have colon : StripsTo [':', ' '] [':', ' '] := .of_escapeFree (by decide)
  exact both.map fun strips => key.append (colon.append strips)

end Entries

/-! ## Values -/

/-- The texts that are written of a value itself. -/
def ownTexts : Value → List String
  | .string text => [text]
  | .object fields => fields.map (·.1)
  | .function value => [value.name]
  | _ => []

/-- No string, key of an object or name of a function in a value has an escape character. -/
def Unescaped (promises : Promises) (value : Value) : Prop :=
  ∀ part, Reaches promises value part → ∀ text ∈ part.ownTexts, EscapeFree text.toList

theorem Unescaped.own {promises : Promises} {value : Value}
    (unescaped : Unescaped promises value) {text : String} (mem : text ∈ value.ownTexts) :
    EscapeFree text.toList :=
  unescaped value .refl text mem

theorem Unescaped.of_holds {promises : Promises} {value part : Value}
    (unescaped : Unescaped promises value) (holds : Holds promises value part) :
    Unescaped promises part :=
  fun other reaches => unescaped other (.head holds reaches)

theorem unescaped_of_holds {promises : Promises} {value : Value}
    (own : ∀ text ∈ value.ownTexts, EscapeFree text.toList)
    (held : ∀ part, Holds promises value part → Unescaped promises part) :
    Unescaped promises value := by
  intro part reaches
  rcases Relation.ReflTransGen.cases_head reaches with rfl | ⟨middle, holds, further⟩
  · exact own
  · exact held middle holds part further

section Showing

variable {promises : Promises} {depth : Option Nat}
  {shown shown' : Nat → Nat → Option (List Char)}

/-- A value that is shown in colours is stripped to the value without, if its promises are. -/
theorem bothStrip_showWith
    (promised : ∀ level identity, Unescaped promises (.promise identity) →
      BothStrip (shown level identity) (shown' level identity))
    (value : Value) (unescaped : Unescaped promises value) (level : Nat) :
    BothStrip (showWith ⟨⟨true⟩, depth⟩ shown level value)
      (showWith ⟨.plain, depth⟩ shown' level value) := by
  induction value using Value.inductionOnParts generalizing level with
  | undefined | null => exact .some (.paint (by decide) _)
  | bool value => cases value <;> exact .some (.paint (by decide) _)
  | number value => exact .some (.paint value.escapeFree_text _)
  | string value =>
      exact .some (.paint (escapeFree_quote (unescaped.own List.mem_cons_self)) _)
  | function value =>
      exact .some (.paint (escapeFree_label (unescaped.own List.mem_cons_self)) _)
  | promise identity => exact promised level identity unescaped
  | array items ih =>
      rw [showWith_array, showWith_array]
      exact .showEntries (by decide) (by decide) (by decide) fun item mem =>
        ih item mem (unescaped.of_holds (.item mem)) (level + 1)
  | object fields ih =>
      rw [showWith_object, showWith_object]
      exact .showEntries (by decide) (by decide) (by decide) fun entry mem =>
        .showField (unescaped.own (List.mem_map_of_mem mem))
          (ih entry mem (unescaped.of_holds (.field mem)) (level + 1))

theorem bothStrip_showPromise (fuel level identity : Nat)
    (unescaped : Unescaped promises (.promise identity)) :
    BothStrip (showPromise ⟨⟨true⟩, depth⟩ promises fuel level identity)
      (showPromise ⟨.plain, depth⟩ promises fuel level identity) := by
  induction fuel generalizing level identity with
  | zero => exact .none
  | succ fuel ih =>
      have inner {value : Value} (holds : Holds promises (.promise identity) value) :
          BothStrip
            (showWith ⟨⟨true⟩, depth⟩ (showPromise ⟨⟨true⟩, depth⟩ promises fuel) (level + 1) value)
            (showWith ⟨.plain, depth⟩ (showPromise ⟨.plain, depth⟩ promises fuel) (level + 1)
              value) :=
        bothStrip_showWith ih value (unescaped.of_holds holds) (level + 1)
      have opening : StripsTo "Promise \x7b ".toList "Promise \x7b ".toList :=
        .of_escapeFree (by decide)
      have closing : StripsTo " \x7d".toList " \x7d".toList := .of_escapeFree (by decide)
      have blank : StripsTo [' '] [' '] := .of_escapeFree (by decide)
      rw [showPromise, showPromise]
      cases state : promises.state identity with
      | pending => exact .some ((opening.append (.paint (by decide) _)).append closing)
      | fulfilled value =>
          exact (inner (.fulfilled state)).map fun strips => (opening.append strips).append closing
      | rejected reason =>
          exact (inner (.rejected state)).map fun strips =>
            ((opening.append (.paint (by decide) _)).append (blank.append strips)).append closing

end Showing

/-- Colours never change the text of a value that holds no escape character, at any depth: in
colours it has a text exactly if it has one without, and the one is stripped to the other.
There is a text whenever no promise leads back to itself. -/
theorem stripEscapes_inspect (promises : Promises) (value : Value) (depth : Option Nat)
    (unescaped : Unescaped promises value) :
    (inspect? ⟨⟨true⟩, depth⟩ promises value).map Text.stripEscapes =
        inspect? ⟨.plain, depth⟩ promises value ∧
      Text.stripEscapes (inspect ⟨⟨true⟩, depth⟩ promises value).toList =
        (inspect ⟨.plain, depth⟩ promises value).toList ∧
      (Acyclic promises value →
        ∃ text, inspect? ⟨⟨true⟩, depth⟩ promises value = some text) := by
  have stripped : (inspect? ⟨⟨true⟩, depth⟩ promises value).map Text.stripEscapes =
      inspect? ⟨.plain, depth⟩ promises value :=
    (bothStrip_showWith (bothStrip_showPromise _) value unescaped 0).map_stripEscapes
  refine ⟨stripped, ?_, fun acyclic => exists_inspect?_of_acyclic acyclic _⟩
  rw [inspect, inspect, String.toList_ofList, String.toList_ofList, ← stripped]
  cases inspect? ⟨⟨true⟩, depth⟩ promises value with
  | none => exact Text.stripEscapes_of_not_mem List.not_mem_nil
  | some text => rfl

/-- An array of a promise that was rejected with an object, and of a function. -/
theorem stripEscapes_inspect_rejected :
    ∃ promises value text, promises = Promises.mk [.rejected (.object [("b c", .string "d")])] ∧
      value = .array [.promise 0, .function (.native "f" 0)] ∧
      Unescaped promises value ∧ Acyclic promises value ∧
      inspect? ⟨⟨true⟩, some 2⟩ promises value = some text ∧
      (inspect? ⟨⟨true⟩, some 2⟩ promises value).map Text.stripEscapes =
        some "[ Promise \x7b <rejected> \x7b 'b c': 'd' \x7d \x7d, [Function: f] ]".toList := by
  let promises : Promises := ⟨[.rejected (.object [("b c", .string "d")])]⟩
  have ofPromise {identity part} (holds : Holds promises (.promise identity) part) :
      part = .object [("b c", .string "d")] := by
    cases identity <;> cases holds with
    | fulfilled settled => cases settled
    | rejected settled => cases settled <;> rfl
  have ofReason {part} (holds : Holds promises (.object [("b c", .string "d")]) part) :
      part = .string "d" := by
    cases holds with
    | field mem => rw [List.mem_singleton.1 mem]
  have unescaped : Unescaped promises (.array [.promise 0, .function (.native "f" 0)]) := by
    refine unescaped_of_holds (by decide) fun part holds => ?_
    cases holds with
    | item mem =>
        rw [List.mem_pair] at mem
        rcases mem with rfl | rfl
        · refine unescaped_of_holds (by decide) fun part holds => ?_
          rw [ofPromise holds]
          refine unescaped_of_holds (by decide) fun part holds => ?_
          rw [ofReason holds]
          exact unescaped_of_holds (by decide) nofun
        · exact unescaped_of_holds (by decide) nofun
  have acyclic : Acyclic promises (.array [.promise 0, .function (.native "f" 0)]) := by
    intro identity _ cycle
    obtain ⟨part, holds, back⟩ := Relation.TransGen.head'_iff.1 cycle
    rw [ofPromise holds] at back
    rcases Relation.ReflTransGen.cases_head back with same | ⟨part, holds, back⟩
    · cases same
    · rw [ofReason holds] at back
      rcases Relation.ReflTransGen.cases_head back with same | ⟨part, holds, -⟩
      · cases same
      · cases holds
  have plain : inspect? ⟨.plain, some 2⟩ promises
      (.array [.promise 0, .function (.native "f" 0)]) =
        some "[ Promise \x7b <rejected> \x7b 'b c': 'd' \x7d \x7d, [Function: f] ]".toList := by
    decide +kernel
  obtain ⟨stripped, -, shown⟩ := stripEscapes_inspect promises _ (some 2) unescaped
  obtain ⟨text, isShown⟩ := shown acyclic
  exact ⟨promises, _, text, rfl, rfl, unescaped, acyclic, isShown, stripped.trans plain⟩

end Value

end ScriptConsole

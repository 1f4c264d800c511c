import ScriptConsole.Completion
import ScriptConsole.Proofs.Token.Partition

/-!
# What is offered to complete input

The word before the cursor is the longest run of identifier characters that ends there.
What is offered begins with it, so to put it in place of the word changes nothing else of
the line.
-/

namespace ScriptConsole

namespace Text

/-- A text that can be cut before a byte is the text before and the text after. -/
theorem eq_append_of_cutAtByte? {byte : Nat} {cs before after : List Char}
    (cut : cutAtByte? byte cs = some (before, after)) :
    cs = before ++ after ∧ byteLength before = byte := by
  induction cs generalizing byte before with
  | nil =>
      cases byte with
      | zero =>
          rw [cutAtByte?] at cut
          cases cut
          exact ⟨rfl, rfl⟩
      | succ byte => cases cut
  | cons c cs ih =>
      cases byte with
      | zero =>
          rw [cutAtByte?] at cut
          cases cut
          exact ⟨rfl, rfl⟩
      | succ byte =>
          rw [cutAtByte?] at cut
          split at cut
          · rename_i fits
            obtain ⟨⟨first, rest⟩, inner, whole⟩ := Option.map_eq_some_iff.1 cut
            cases whole
            obtain ⟨rfl, length⟩ := ih inner
            refine ⟨rfl, ?_⟩
            rw [byteLength, length]
            omega
          · cases cut

theorem takeBytes_byteLength (before after : List Char) :
    takeBytes (byteLength before) (before ++ after) = before := by
  induction before with
  | nil => rw [byteLength, takeBytes]
  | cons c before ih =>
      obtain ⟨size, hsize⟩ := Nat.exists_eq_add_one_of_ne_zero (Nat.ne_of_gt c.utf8Size_pos)
      have reach : byteLength (c :: before) = size + byteLength before + 1 := by
        rw [byteLength, hsize]
        omega
      have further : size + byteLength before + 1 - c.utf8Size = byteLength before := by omega
      rw [reach, List.cons_append, takeBytes, further, ih]

end Text

namespace Completer

/-! ## The word before the cursor -/

/-- A dot at the start and letters alone after it. -/
def OpensDirective (before : List Char) : Prop :=
  ∃ letters, before = '.' :: letters ∧ ∀ c ∈ letters, Text.isAsciiLetter c = true

theorem eq_of_directiveStart?_eq_some {before letters : List Char}
    (opens : directiveStart? before = some letters) : before = '.' :: letters := by
  unfold directiveStart? at opens
  split at opens
  · split at opens
    · rw [Option.some.inj opens]
    · cases opens
  · cases opens

theorem directiveStart?_eq_none_iff {before : List Char} :
    directiveStart? before = none ↔ ¬OpensDirective before := by
  constructor
  · rintro refused ⟨letters, rfl, all⟩
    simp [directiveStart?, List.all_eq_true.2 all] at refused
  · intro other
    unfold directiveStart?
    split
    · rename_i letters
      have mixed : ¬letters.all Text.isAsciiLetter = true :=
        fun all => other ⟨letters, rfl, List.all_eq_true.1 all⟩
      rw [if_neg mixed]
    · rfl

theorem isIdentContinue_of_mem_lastWord {before : List Char} {c : Char}
    (mem : c ∈ lastWord before) : Text.isIdentContinue c = true :=
  List.mem_takeWhile_imp (List.mem_reverse.1 mem)

/-- The last word begins where no identifier character is before it. -/
theorem not_isIdentContinue_of_getLast? {before : List Char} {c : Char}
    (last : c ∈ (beforeWord before).getLast?) : Text.isIdentContinue c = false := by
  rw [beforeWord, List.getLast?_reverse] at last
  have stops := List.head?_dropWhile_not Text.isIdentContinue before.reverse
  rwa [last] at stops

/-! ## Names in order -/

theorem mem_distinct {name : String} {names : List String} :
    name ∈ distinct names ↔ name ∈ names := by
  fun_induction distinct names with
  | case1 => rfl
  | case2 => rfl
  | case3 next rest ih => simp only [ih, List.mem_cons, or_self_left]
  | case4 first next rest differ ih => simp only [ih, List.mem_cons]

/-- Repetitions are all that keeps a sorted list from strictly increasing. -/
theorem pairwise_distinct {names : List String} (sorted : names.Pairwise (· ≤ ·)) :
    (distinct names).Pairwise (· < ·) := by
  fun_induction distinct names with
  | case1 => exact .nil
  | case2 name => exact List.pairwise_singleton _ _
  | case3 rest first ih => exact ih sorted.tail
  | case4 first next rest differ ih =>
      rw [List.pairwise_cons] at sorted
      refine List.pairwise_cons.2 ⟨fun name mem => ?_, ih sorted.2⟩
      have before : first < next :=
        Std.lt_of_le_of_ne (sorted.1 next List.mem_cons_self) differ
      rcases List.mem_cons.1 (mem_distinct.1 mem) with rfl | later
      · exact before
      · exact Std.lt_of_lt_of_le before ((List.pairwise_cons.1 sorted.2).1 name later)

section

variable (completer : Completer) (word : List Char)

theorem pairwise_matchesOf : (completer.matchesOf word).Pairwise (· < ·) := by
  refine pairwise_distinct ((List.pairwise_mergeSort ?_ ?_ _).imp of_decide_eq_true)
  · intro first second third
    simpa only [decide_eq_true_eq] using String.le_trans
  · intro first second
    simpa only [Bool.or_eq_true, decide_eq_true_eq] using String.le_total first second

theorem mem_matchesOf_iff {name : String} :
    name ∈ completer.matchesOf word ↔
      (name ∈ completer.names ∨ name ∈ keywords) ∧ word <+: name.toList := by
  rw [matchesOf, mem_distinct, List.mem_mergeSort, List.mem_filter, List.mem_append, startsWith,
    List.isPrefixOf_iff_prefix]

/-- What a directive that begins with some letters is completed to begins with the dot and
these letters. -/
theorem prefix_of_mem_directives {letters : List Char} {found : String}
    (mem : found ∈ (completer.directives.filter (startsWith letters)).map ("." ++ ·)) :
    '.' :: letters <+: found.toList := by
  obtain ⟨name, isMatch, rfl⟩ := List.mem_map.1 mem
  have opens := (List.mem_filter.1 isMatch).2
  rw [startsWith, List.isPrefixOf_iff_prefix] at opens
  rw [String.toList_append]
  exact (List.prefix_cons_inj '.').2 opens

end

/-- Whatever is offered for the text before the cursor, it stands for the end of that text
and begins with it; and unless a directive is completed, this end is the last word. -/
theorem exists_word (completer : Completer) (before : List Char) :
    ∃ lead word, before = lead ++ word ∧ (completer.complete before).start = Text.byteLength lead ∧
      (∀ found ∈ (completer.complete before).matches, word <+: found.toList) ∧
      (¬OpensDirective before → lead = beforeWord before ∧ word = lastWord before ∧
        (completer.complete before).matches =
          if word.isEmpty || lead.getLast? == some '.' then [] else completer.matchesOf word) := by
  unfold complete
  split
  · rename_i letters opens
    refine ⟨[], before, rfl, rfl, fun found mem => ?_, fun other => ?_⟩
    · rw [eq_of_directiveStart?_eq_some opens]
      exact prefix_of_mem_directives completer mem
    · rw [directiveStart?_eq_none_iff.2 other] at opens
      cases opens
  · refine ⟨beforeWord before, lastWord before, (beforeWord_append_lastWord before).symm, rfl,
      fun found mem => ?_, fun _ => ⟨rfl, rfl, rfl⟩⟩
    dsimp only at mem
    split at mem
    · exact absurd mem List.not_mem_nil
    · exact ((mem_matchesOf_iff completer _).1 mem).2

/-- Whatever is published, for every line and every character boundary in it: what is offered
stands for the text from another boundary up to this one, and begins with that text.  Unless
the text before the cursor is a dot and letters, this is the longest run of identifier
characters that ends at the cursor; and the names and keywords that begin with it are offered
in strictly increasing order, or nothing if there is no such run or a dot is before it. -/
theorem complete_takeBytes (completer : Completer) {line : List Char} {pos : Nat}
    (boundary : (Text.cutAtByte? pos line).isSome = true) :
    let offered := completer.complete (Text.takeBytes pos line)
    ∃ lead word after,
      Text.cutAtByte? offered.start line = some (lead, word ++ after) ∧
      Text.cutAtByte? pos line = some (lead ++ word, after) ∧ offered.start ≤ pos ∧
      (∀ found ∈ offered.matches, word <+: found.toList) ∧
      (¬OpensDirective (lead ++ word) →
        (∀ c ∈ word, Text.isIdentContinue c = true) ∧
        (∀ c ∈ lead.getLast?, Text.isIdentContinue c = false) ∧
        offered.matches.Pairwise (· < ·) ∧
        ∀ name, name ∈ offered.matches ↔
          word ≠ [] ∧ lead.getLast? ≠ some '.' ∧
            (name ∈ completer.names ∨ name ∈ keywords) ∧ word <+: name.toList) := by
  obtain ⟨⟨before, after⟩, cut⟩ := Option.isSome_iff_exists.1 boundary
  obtain ⟨rfl, rfl⟩ := Text.eq_append_of_cutAtByte? cut
  rw [Text.takeBytes_byteLength]
  intro offered
  obtain ⟨lead, word, rfl, start, begins, whole⟩ := completer.exists_word before
  refine ⟨lead, word, after, ?_, cut, ?_, begins, fun other => ?_⟩
  · rw [start, List.append_assoc, Text.cutAtByte?_byteLength]
  · rw [start, Text.byteLength_append]
    exact Nat.le_add_right _ _
  obtain ⟨isLead, isWord, found⟩ := whole other
  refine ⟨fun c mem => isIdentContinue_of_mem_lastWord (isWord ▸ mem),
    fun c last => not_isIdentContinue_of_getLast? (isLead ▸ last), ?_, fun name => ?_⟩
  · rw [found]
    split
    · exact .nil
    · exact pairwise_matchesOf completer word
  · rw [found]
    simp only [Bool.or_eq_true, List.isEmpty_iff, beq_iff_eq]
    split
    · rename_i nothing
      refine iff_of_false List.not_mem_nil fun ⟨ne_nil, noDot, _⟩ => ?_
      exact nothing.elim ne_nil noDot
    · rename_i something
      rw [not_or] at something
      rw [mem_matchesOf_iff, ← and_assoc (a := word ≠ []), and_iff_right something]

/-- The word `us` behind a character of two bytes, with a name that is published twice. -/
theorem complete_takeBytes_us :
    let completer : Completer := ⟨["users", "clear", "users"], ["ls"]⟩
    let offered := completer.complete (Text.takeBytes 7 "é = us".toList)
    offered.start = 5 ∧ offered.matches.Pairwise (· < ·) ∧ "users" ∈ offered.matches ∧
      "clear" ∉ offered.matches := by
  intro completer offered
  have cursor : Text.cutAtByte? 7 "é = us".toList = some ("é = us".toList, []) := by decide
  have start : offered.start = 5 := by decide
  have cut : Text.cutAtByte? 5 "é = us".toList = some ("é = ".toList, "us".toList) := by decide
  have boundary : (Text.cutAtByte? 7 "é = us".toList).isSome = true := by rw [cursor]; rfl
  obtain ⟨lead, word, after, isStart, isEnd, -, -, whole⟩ := complete_takeBytes completer boundary
  rw [show (completer.complete _).start = 5 from start, cut] at isStart
  rw [cursor] at isEnd
  obtain ⟨isLead, isRest⟩ := Prod.mk.inj (Option.some.inj isStart)
  obtain ⟨isBefore, isAfter⟩ := Prod.mk.inj (Option.some.inj isEnd)
  subst isLead
  rw [← isAfter, List.append_nil] at isRest
  subst isRest
  rw [← isBefore] at whole
  have noDot : ¬OpensDirective "é = us".toList := by
    rintro ⟨letters, dot, -⟩
    simp at dot
  obtain ⟨-, -, increasing, offers⟩ := whole noDot
  refine ⟨start, increasing, (offers "users").2 ?_, fun mem => ?_⟩
  · exact ⟨by decide, by decide, .inl (by decide), by decide⟩
  · exact absurd ((offers "clear").1 mem).2.2.2 (by decide)

end Completer

end ScriptConsole

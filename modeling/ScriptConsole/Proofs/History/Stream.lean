import Mathlib.Data.List.Destutter
import Mathlib.Data.List.DropRight
import Mathlib.Data.List.Induction
import ScriptConsole.History

/-!
# What a history keeps of the lines it is given

The lines that are added and the lines of the files that are loaded make one stream.  A
history keeps the end of that stream, once its blank lines are dropped and every run of
equal neighbours is collapsed: to forget the oldest entry never changes what the latest
entry is compared with.
-/

namespace ScriptConsole

namespace History

/-- What is done with a history: a line is added, or a file is loaded from the disk as it is
then. -/
inductive Change where
  | add (line : String)
  | load (disk : Disk) (path : String)

/-- The lines of a file; one that cannot be loaded gives none. -/
def fileLines (disk : Disk) (path : String) : List String :=
  match disk.read path with
  | .error _ => []
  | .ok bytes =>
      match Text.decode? bytes with
      | none => []
      | some text => linesOf text.toList

/-- The lines that a change gives to a history. -/
def Change.lines : Change → List String
  | .add line => [line]
  | .load disk path => fileLines disk path

/-- A history after a change; it stays as it is if a file cannot be loaded. -/
def change (history : History) : Change → History
  | .add line => history.add line
  | .load disk path =>
      match history.load disk path with
      | .error _ => history
      | .ok loaded => loaded

/-- What has become of an empty history. -/
def after (limit : Nat) (changes : List Change) : History :=
  changes.foldl change (empty limit)

/-- Lines without blank ones, every run of equal neighbours collapsed to one line. -/
def collapse (lines : List String) : List String :=
  (lines.filter fun line => !Text.isAllBlank line.toList).destutter (· ≠ ·)

/-! ## One stream of lines -/

theorem change_eq_addAll (history : History) (step : Change) :
    history.change step = history.addAll step.lines := by
  cases step with
  | add line => rfl
  | load disk path =>
      rw [change, load, Change.lines, fileLines]
      cases disk.read path with
      | error fault => cases fault <;> rfl
      | ok bytes =>
          dsimp only
          cases Text.decode? bytes <;> rfl

theorem foldl_change_eq_addAll (history : History) (changes : List Change) :
    changes.foldl change history = history.addAll (changes.flatMap Change.lines) := by
  induction changes generalizing history with
  | nil => rfl
  | cons step changes ih =>
      rw [List.foldl_cons, ih, change_eq_addAll, List.flatMap_cons, addAll, addAll, addAll,
        List.foldl_append]

theorem after_eq_addAll (limit : Nat) (changes : List Change) :
    after limit changes = (empty limit).addAll (changes.flatMap Change.lines) :=
  foldl_change_eq_addAll _ _

@[simp] theorem limit_addAll (history : History) (lines : List String) :
    (history.addAll lines).limit = history.limit := by
  induction lines generalizing history with
  | nil => rfl
  | cons line lines ih => exact (ih _).trans (limit_add history line)

theorem limit_after (limit : Nat) (changes : List Change) :
    (after limit changes).limit = limit := by
  rw [after_eq_addAll, limit_addAll]
  rfl

/-! ## Collapsing from the end -/

section Destutter

variable {α : Type} [DecidableEq α]

theorem destutter'_concat (first last : α) (values : List α) :
    (values ++ [last]).destutter' (· ≠ ·) first =
      if (first :: values).getLast? = some last then values.destutter' (· ≠ ·) first
      else values.destutter' (· ≠ ·) first ++ [last] := by
  induction values generalizing first with
  | nil =>
      by_cases same : first = last <;> simp [List.destutter', same]
  | cons value values ih =>
      by_cases same : first = value
      · subst same
        rw [List.cons_append, List.destutter'_cons_neg _ (not_not.2 rfl), ih,
          List.destutter'_cons_neg _ (not_not.2 rfl), List.getLast?_cons_cons]
      · rw [List.cons_append, List.destutter'_cons_pos _ same, ih,
          List.destutter'_cons_pos _ same, List.getLast?_cons_cons]
        split <;> rfl

theorem destutter_concat (values : List α) (last : α) :
    (values ++ [last]).destutter (· ≠ ·) =
      if values.getLast? = some last then values.destutter (· ≠ ·)
      else values.destutter (· ≠ ·) ++ [last] := by
  cases values with
  | nil => rfl
  | cons first values => exact destutter'_concat first last values

theorem getLast?_destutter (values : List α) :
    (values.destutter (· ≠ ·)).getLast? = values.getLast? := by
  induction values using List.reverseRecOn with
  | nil => rfl
  | append_singleton values last ih =>
      rw [destutter_concat, List.getLast?_concat]
      split
      · rename_i same
        rw [ih, same]
      · exact List.getLast?_concat

end Destutter

theorem collapse_concat_of_blank {line : String} (blank : Text.isAllBlank line.toList = true)
    (lines : List String) : collapse (lines ++ [line]) = collapse lines := by
  simp [collapse, List.filter_append, blank]

theorem collapse_concat {line : String} (shown : Text.isAllBlank line.toList = false)
    (lines : List String) :
    collapse (lines ++ [line]) =
      if (collapse lines).getLast? = some line then collapse lines
      else collapse lines ++ [line] := by
  rw [collapse, List.filter_append, List.filter_singleton, shown, collapse, getLast?_destutter]
  exact destutter_concat _ _

theorem isChain_collapse (lines : List String) : (collapse lines).IsChain (· ≠ ·) :=
  List.isChain_destutter _ _

theorem not_blank_of_mem_collapse {lines : List String} {line : String}
    (mem : line ∈ collapse lines) : Text.isAllBlank line.toList = false := by
  have kept := List.of_mem_filter ((List.destutter_sublist _ _).mem mem)
  simpa using kept

theorem collapse_sublist (lines : List String) : (collapse lines).Sublist lines :=
  (List.destutter_sublist _ _).trans List.filter_sublist

theorem collapse_eq_self {lines : List String} (distinct : lines.IsChain (· ≠ ·))
    (shown : ∀ line ∈ lines, Text.isAllBlank line.toList = false) : collapse lines = lines := by
  have whole : (lines.filter fun line => !Text.isAllBlank line.toList) = lines :=
    List.filter_eq_self.2 fun line mem => by rw [shown line mem, Bool.not_false]
  rw [collapse, whole, List.destutter_of_isChain _ _ distinct]

/-! ## Forgetting from the front -/

section Forgetting

variable {α : Type} {limit : Nat}

theorem rtake_suffix (values : List α) : values.rtake limit <:+ values :=
  List.drop_suffix _ _

theorem length_rtake_le (values : List α) : (values.rtake limit).length ≤ limit := by
  rw [List.rtake, List.length_drop]
  omega

theorem rtake_eq_self {values : List α} (short : values.length ≤ limit) :
    values.rtake limit = values := by
  rw [List.rtake, Nat.sub_eq_zero_of_le short, List.drop_zero]

/-- What was forgotten before is not there to be forgotten after one more element. -/
theorem rtake_concat_rtake (values : List α) (last : α) :
    (values.rtake limit ++ [last]).rtake limit = (values ++ [last]).rtake limit := by
  cases limit with
  | zero => rw [List.rtake_zero, List.rtake_zero]
  | succ limit =>
      rw [List.rtake_concat_succ, List.rtake_concat_succ]
      simp [List.rtake_eq_reverse_take_reverse, List.take_take]

theorem getLast?_rtake_succ (values : List α) :
    (values.rtake (limit + 1)).getLast? = values.getLast? := by
  rw [List.rtake_eq_reverse_take_reverse, List.getLast?_reverse,
    List.head?_take, if_neg (Nat.succ_ne_zero limit), List.head?_reverse]

end Forgetting

theorem add_of_blank {line : String} (blank : Text.isAllBlank line.toList = true)
    (history : History) : history.add line = history := by
  simp [add, blank]

theorem entries_add_of_not_blank {line : String} (shown : Text.isAllBlank line.toList = false)
    (history : History) :
    (history.add line).entries =
      if history.entries.getLast? = some line then history.entries
      else (history.entries ++ [line]).rtake history.limit := by
  simp only [add, shown, Bool.false_or, beq_iff_eq]
  split <;> rfl

/-- Adding a line to the kept end of a stream gives the kept end of the longer stream. -/
theorem entries_add {history : History} {lines : List String}
    (kept : history.entries = (collapse lines).rtake history.limit) (line : String) :
    (history.add line).entries = (collapse (lines ++ [line])).rtake history.limit := by
  cases blank : Text.isAllBlank line.toList with
  | true => rw [add_of_blank blank, collapse_concat_of_blank blank, kept]
  | false =>
      rw [entries_add_of_not_blank blank, collapse_concat blank, kept]
      -- A history that keeps nothing compares with nothing, and still keeps nothing.
      cases history.limit with
      | zero => simp only [List.rtake_zero, ite_self]
      | succ limit =>
          rw [getLast?_rtake_succ]
          split
          · rfl
          · exact rtake_concat_rtake _ _

theorem entries_addAll (limit : Nat) (lines : List String) :
    ((empty limit).addAll lines).entries = (collapse lines).rtake limit := by
  induction lines using List.reverseRecOn with
  | nil => exact (List.rtake_nil limit).symm
  | append_singleton lines line ih =>
      have unchanged : ((empty limit).addAll lines).limit = limit := limit_addAll _ _
      have kept : ((empty limit).addAll lines).entries =
          (collapse lines).rtake ((empty limit).addAll lines).limit := by rw [ih, unchanged]
      have next := entries_add kept line
      rw [unchanged] at next
      rw [addAll, List.foldl_append]
      exact next

/-- What holds of a history at every moment. -/
structure WellKept (history : History) : Prop where
  short : history.entries.length ≤ history.limit
  shown : ∀ entry ∈ history.entries, Text.isAllBlank entry.toList = false
  distinct : history.entries.IsChain (· ≠ ·)

theorem wellKept_addAll (limit : Nat) (lines : List String) :
    ((empty limit).addAll lines).WellKept := by
  have kept := entries_addAll limit lines
  have suffix : (collapse lines).rtake limit <:+ collapse lines := rtake_suffix _
  refine ⟨?_, fun entry mem => ?_, ?_⟩
  · rw [kept, limit_addAll]
    exact length_rtake_le _
  · rw [kept] at mem
    exact not_blank_of_mem_collapse (suffix.mem mem)
  · rw [kept]
    exact (isChain_collapse lines).suffix suffix

theorem wellKept_after (limit : Nat) (changes : List Change) : (after limit changes).WellKept := by
  rw [after_eq_addAll]
  exact wellKept_addAll limit _

/-- The entries of a history are the end of the collapsed stream of all lines that it was
given, whatever its limit is and however additions and loads alternate.  So there are never
more of them than the limit, none is blank, and no two neighbours are equal. -/
theorem entries_after (limit : Nat) (changes : List Change) :
    (after limit changes).entries =
        (collapse (changes.flatMap Change.lines)).rtake limit ∧
      (after limit changes).entries.length ≤ limit ∧
      (∀ entry ∈ (after limit changes).entries, Text.isAllBlank entry.toList = false) ∧
      (after limit changes).entries.IsChain (· ≠ ·) := by
  obtain ⟨short, shown, distinct⟩ := wellKept_after limit changes
  rw [limit_after] at short
  refine ⟨?_, short, shown, distinct⟩
  rw [after_eq_addAll, entries_addAll]

/-- A history of at most two entries that is given a line twice, the three lines of a file, the
file once it is no text, and one more line. -/
theorem entries_after_two :
    ∃ changes : List Change, changes.flatMap Change.lines = ["a", "a", " ", "a", "b", "c"] ∧
      (after 2 changes).entries = ["b", "c"] ∧ Text.isAllBlank "b".toList = false := by
  let disk : Disk := { entries := [(["h"], .file (Text.encode " \na\r\nb"))] }
  let damaged : Disk := { entries := [(["h"], .file ⟨#[255]⟩)] }
  have named : Disk.names "h" = ["h"] := by
    rw [Disk.names, String.splitOn, String.splitOnAux, String.splitOnAux]
    decide
  have text : fileLines disk "h" = [" ", "a", "b"] := by
    have read : disk.read "h" = .ok (Text.encode " \na\r\nb") := by
      rw [Disk.read, Disk.locate, Disk.resolve, named]
      rfl
    rw [fileLines, read]
    simp only [Text.decode?_encode]
    decide +kernel
  have noText : fileLines damaged "h" = [] := by
    have read : damaged.read "h" = .ok ⟨#[255]⟩ := by
      rw [Disk.read, Disk.locate, Disk.resolve, named]
      rfl
    rw [fileLines, read]
    rfl
  have given : [Change.add "a", .add "a", .load disk "h", .load damaged "h", .add "c"].flatMap
      Change.lines = ["a", "a", " ", "a", "b", "c"] := by
    simp only [List.flatMap_cons, Change.lines, text, noText]
    rfl
  have stream := entries_after 2 [.add "a", .add "a", .load disk "h", .load damaged "h", .add "c"]
  rw [given] at stream
  have kept := stream.1.trans (show _ = ["b", "c"] by decide +kernel)
  exact ⟨_, given, kept, stream.2.2.1 _ (by simp [kept])⟩

end History

end ScriptConsole

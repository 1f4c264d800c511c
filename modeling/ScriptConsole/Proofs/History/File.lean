import ScriptConsole.Editor
import ScriptConsole.Proofs.Disk.Opening
import ScriptConsole.Proofs.History.Stream
import ScriptConsole.Proofs.Text.Cutting

/-!
# Histories that are saved and loaded

A file holds one entry a line, so it gives back the entries that are lines: those without
a line feed that do not end in a carriage return.  All lines that are read from piped
input are such.  What the loading history would drop is not in the file: a history keeps no
blank entries, no equal neighbours and no more entries than its limit.
-/

namespace ScriptConsole

/-! ## Lines of piped input -/

namespace Text

theorem toList_encode (text : String) :
    (encode text).data.toList = text.toList.flatMap String.utf8EncodeChar := by
  rw [encode, String.toUTF8_eq_toByteArray, ← String.utf8Encode_toList, List.utf8Encode,
    List.data_toByteArray]

theorem eq_nil_of_flatMap_encode {cs : List Char}
    (nothing : cs.flatMap String.utf8EncodeChar = []) : cs = [] := by
  cases cs with
  | nil => rfl
  | cons c cs =>
      rw [List.flatMap_cons, List.append_eq_nil_iff] at nothing
      exact absurd nothing.1 String.utf8EncodeChar_ne_nil

theorem encode_of_decode? {bytes : ByteArray} {text : String}
    (decoded : decode? bytes = some text) : encode text = bytes := by
  unfold decode? String.fromUTF8? at decoded
  split at decoded
  · cases decoded
    rfl
  · cases decoded

end Text

namespace History

/-- A text that a file can hold as one line. -/
def IsLine (line : String) : Prop :=
  '\n' ∉ line.toList ∧ line.toList.getLast? ≠ some '\r'

end History

namespace InputSource

theorem encode_lineFeed : String.utf8EncodeChar '\n' = [10] := rfl

theorem eq_nil_of_cutLine_eq {bytes before rest : List UInt8}
    (cut : (cutLine bytes).1 = before ++ 10 :: rest) : rest = [] := by
  induction bytes generalizing before with
  | nil => simp [cutLine] at cut
  | cons byte bytes ih =>
      by_cases feed : byte = 10
      · rw [cutLine, if_pos feed] at cut
        cases before with
        | nil => exact (List.cons.inj cut).2.symm
        | cons first before => simp at cut
      · rw [cutLine, if_neg feed] at cut
        cases before with
        | nil => exact absurd (List.cons.inj cut).1 feed
        | cons first before => exact ih (List.cons.inj cut).2

theorem withoutBreak_append (line : List Char) :
    ∃ ending, withoutBreak line ++ ending = line :=
  List.rdropWhile_prefix _ _

theorem getLast?_withoutBreak {line : List Char} {c : Char}
    (last : (withoutBreak line).getLast? = some c) : c ≠ '\n' ∧ c ≠ '\r' := by
  have kept : (line.reverse.dropWhile fun c => c = '\n' || c = '\r').head? = some c := by
    rwa [withoutBreak, List.getLast?_reverse] at last
  have stopped := List.head?_dropWhile_not (fun c => decide (c = '\n') || decide (c = '\r'))
    line.reverse
  simpa [kept] using stopped

theorem isLine_of_eventOfBytes? {bytes : List UInt8} {line : String}
    (read : eventOfBytes? (cutLine bytes).1 = some (.line line)) : History.IsLine line := by
  unfold eventOfBytes? at read
  split at read
  · cases read
  obtain ⟨text, decoded, spelled⟩ := Option.map_eq_some_iff.1 read
  obtain rfl := InputEvent.line.inj spelled
  rw [History.IsLine, String.toList_ofList]
  refine ⟨fun feed => ?_, fun last => (getLast?_withoutBreak last).2 rfl⟩
  obtain ⟨before, rest, whole⟩ := List.append_of_mem feed
  obtain ⟨ending, restored⟩ := withoutBreak_append text.toList
  have spelled := Text.toList_encode text
  rw [Text.encode_of_decode? decoded, ← restored, whole, List.append_assoc,
    List.flatMap_append, List.cons_append, List.flatMap_cons, encode_lineFeed] at spelled
  -- The byte of the line feed ends the line, so no character is behind it.
  have nothing := Text.eq_nil_of_flatMap_encode (eq_nil_of_cutLine_eq spelled)
  rw [(List.append_eq_nil_iff.1 nothing).1] at whole
  exact (getLast?_withoutBreak (by rw [whole, List.getLast?_concat])).1 rfl

end InputSource

namespace History

/-! ## Lines of a file -/

theorem toList_fileText (history : History) :
    history.fileText.toList = history.entries.flatMap fun entry => entry.toList ++ ['\n'] := by
  simp [fileText, String.toList_join, List.flatMap_map]

theorem cutAtChar_file (entries : List String) :
    Text.cutAtChar '\n' (entries.flatMap fun entry => entry.toList ++ ['\n']) =
      (entries.flatMap fun entry => Text.cutAtChar '\n' entry.toList) ++ [[]] := by
  induction entries with
  | nil => rfl
  | cons entry entries ih =>
      rw [List.flatMap_cons, List.append_assoc, List.singleton_append, Text.cutAtChar_append_cons,
        ih, List.flatMap_cons, List.append_assoc]

/-- A history file has the lines of its entries, without the carriage returns at their ends. -/
theorem linesOf_fileText (history : History) :
    linesOf history.fileText.toList =
      (history.entries.flatMap fun entry => Text.cutAtChar '\n' entry.toList).map fun line =>
        String.ofList (withoutReturn line) := by
  rw [toList_fileText, linesOf, cutAtChar_file]
  simp

theorem withoutReturn_sublist (line : List Char) : (withoutReturn line).Sublist line := by
  unfold withoutReturn
  split
  · exact List.dropLast_sublist line
  · exact List.Sublist.refl line

theorem withoutReturn_eq_self_iff {line : List Char} :
    withoutReturn line = line ↔ line.getLast? ≠ some '\r' := by
  unfold withoutReturn
  split
  · rename_i ends
    refine iff_of_false (fun same => ?_) (not_not.2 ends)
    have shorter := congrArg List.length same
    have some_char : line ≠ [] := by
      rintro rfl
      cases ends
    have positive := List.length_pos_iff.2 some_char
    rw [List.length_dropLast] at shorter
    omega
  · rename_i plain
    exact iff_of_true rfl plain

theorem lineFeed_not_mem_of_mem_linesOf {history : History} {line : String}
    (mem : line ∈ linesOf history.fileText.toList) : '\n' ∉ line.toList := by
  rw [linesOf_fileText] at mem
  obtain ⟨piece, isPiece, rfl⟩ := List.mem_map.1 mem
  obtain ⟨entry, -, cut⟩ := List.mem_flatMap.1 isPiece
  rw [String.toList_ofList]
  exact fun feed => Text.not_mem_of_mem_cutAtChar cut ((withoutReturn_sublist piece).mem feed)

theorem linesOf_fileText_of_not_mem {history : History}
    (free : ∀ entry ∈ history.entries, '\n' ∉ entry.toList) :
    linesOf history.fileText.toList =
      history.entries.map fun entry => String.ofList (withoutReturn entry.toList) := by
  have whole : history.entries.flatMap (fun entry => Text.cutAtChar '\n' entry.toList) =
      history.entries.map String.toList := by
    rw [List.map_eq_flatMap]
    exact List.flatMap_congr fun entry mem => Text.cutAtChar_of_not_mem (free entry mem)
  rw [linesOf_fileText, whole, List.map_map]
  rfl

/-- A history file gives back the entries of a history exactly if they are lines. -/
theorem WellKept.entries_reloaded_eq_iff {history : History} (tidy : history.WellKept) :
    ((empty history.limit).addAll (linesOf history.fileText.toList)).entries = history.entries ↔
      ∀ entry ∈ history.entries, IsLine entry := by
  rw [entries_addAll]
  constructor
  · intro same
    have sublist : history.entries.Sublist (linesOf history.fileText.toList) := by
      conv_lhs => rw [← same]
      exact (rtake_suffix _).sublist.trans (collapse_sublist _)
    have free : ∀ entry ∈ history.entries, '\n' ∉ entry.toList :=
      fun entry mem => lineFeed_not_mem_of_mem_linesOf (sublist.mem mem)
    rw [linesOf_fileText_of_not_mem free] at sublist
    -- As many lines as entries are left, so each line is the entry itself.
    have each := sublist.eq_of_length (List.length_map _).symm
    have unchanged := List.map_inj_left.1 ((List.map_id _).trans each)
    refine fun entry mem => ⟨free entry mem, ?_⟩
    have plain := congrArg String.toList (unchanged entry mem)
    rw [String.toList_ofList] at plain
    exact withoutReturn_eq_self_iff.1 plain.symm
  · intro lines
    have each : linesOf history.fileText.toList = history.entries := by
      rw [linesOf_fileText_of_not_mem fun entry mem => (lines entry mem).1]
      refine (List.map_congr_left fun entry mem => ?_).trans (List.map_id _)
      rw [withoutReturn_eq_self_iff.2 (lines entry mem).2, String.ofList_toList, id]
    rw [each, collapse_eq_self tidy.distinct tidy.shown, rtake_eq_self tidy.short]

/-! ## Saving and loading -/

theorem save_eq_ok_iff {history : History} {disk saved : Disk} {path : String} :
    history.save disk path = .ok saved ↔
      ∃ place old, disk.openFile path = .ok (place, old) ∧
        saved = disk.put place (.file (Text.encode history.fileText)) := by
  rw [save, Disk.write]
  cases disk.openFile path with
  | error fault => simp
  | ok opened =>
      obtain ⟨place, old⟩ := opened
      simp [eq_comm]

/-- A file that was saved holds the text of the history, and can be saved again. -/
theorem read_of_save {history : History} {disk saved : Disk} {path : String}
    (h : history.save disk path = .ok saved) :
    saved.read path = .ok (Text.encode history.fileText) ∧
      ∃ opened, saved.openFile path = .ok opened := by
  obtain ⟨place, old, opened, rfl⟩ := save_eq_ok_iff.1 h
  exact ⟨Disk.read_put_of_openFile opened _, _, Disk.openFile_put_of_openFile opened _⟩

theorem load_of_read {disk : Disk} {path text : String}
    (read : disk.read path = .ok (Text.encode text)) (history : History) :
    history.load disk path = .ok (history.addAll (linesOf text.toList)) := by
  rw [load, read]
  simp

theorem exists_save_iff (history : History) (disk : Disk) (path : String) :
    (∃ saved, history.save disk path = .ok saved) ↔
      ∃ opened, disk.openFile path = .ok opened := by
  constructor
  · rintro ⟨saved, h⟩
    obtain ⟨place, old, opened, -⟩ := save_eq_ok_iff.1 h
    exact ⟨_, opened⟩
  · rintro ⟨⟨place, old⟩, opened⟩
    exact ⟨_, save_eq_ok_iff.2 ⟨place, old, opened, rfl⟩⟩

/-- A saved history loads back as it was exactly if its entries are lines, as all lines of
piped input are; saved again, it then gives the same bytes.  It can be saved wherever a file
can be opened, and what was saved can always be loaded and saved again. -/
theorem entries_load_of_save :
    (∀ (bytes : List UInt8) (line : String) (rest : InputSource),
      (InputSource.piped bytes).next = (some (.line line), rest) → IsLine line) ∧
    ∀ (limit : Nat) (changes : List Change) (disk : Disk) (path : String),
      ((∃ saved, (after limit changes).save disk path = .ok saved) ↔
        ∃ opened, disk.openFile path = .ok opened) ∧
      ∀ saved, (after limit changes).save disk path = .ok saved →
        ∃ loaded, (empty limit).load saved path = .ok loaded ∧
          (loaded.entries = (after limit changes).entries ↔
            ∀ entry ∈ (after limit changes).entries, IsLine entry) ∧
          (∃ again, loaded.save saved path = .ok again) ∧
          ((∀ entry ∈ (after limit changes).entries, IsLine entry) →
            ∀ disk' path' again, loaded.save disk' path' = .ok again →
              again.read path' = saved.read path) := by
  refine ⟨fun bytes line rest next => ?_, fun limit changes disk path =>
    ⟨exists_save_iff _ disk path, fun saved h => ?_⟩⟩
  · exact InputSource.isLine_of_eventOfBytes? (Prod.mk.inj next).1
  obtain ⟨read, reopened⟩ := read_of_save h
  have same := (wellKept_after limit changes).entries_reloaded_eq_iff
  rw [limit_after] at same
  refine ⟨_, load_of_read read _, same, (exists_save_iff _ saved path).2 reopened,
    fun lines disk' path' again h' => ?_⟩
  rw [(read_of_save h').1, read, fileText, same.2 lines, fileText]

/-- A history of at most two entries that is given four lines, two of them the same, and saved
in the new file `h`; and the first line of bytes that have a carriage return before the line
feed. -/
theorem entries_load_of_save_two :
    (InputSource.piped [97, 13, 10, 98]).next = (some (.line "a"), .piped [98]) ∧ IsLine "a" ∧
      ∃ changes saved loaded again,
        changes = [.add "x", .add "a", .add "a", .add " ", .add "b"] ∧
        (after 2 changes).entries = ["a", "b"] ∧
        (after 2 changes).save .empty "h" = .ok saved ∧
        (empty 2).load saved "h" = .ok loaded ∧ loaded.entries = ["a", "b"] ∧
        loaded.save saved "h" = .ok again ∧ again.read "h" = saved.read "h" := by
  have named : Disk.names "h" = ["h"] := by
    rw [Disk.names, String.splitOn, String.splitOnAux, String.splitOnAux]
    decide
  have opened : Disk.empty.openFile "h" = .ok (["h"], ByteArray.empty) := by
    rw [Disk.openFile, Disk.locate, Disk.resolve, named]
    rfl
  have first : (InputSource.piped [97, 13, 10, 98]).next =
      (some (.line "a"), .piped [98]) := by
    decide +kernel
  have kept : (after 2 [.add "x", .add "a", .add "a", .add " ", .add "b"]).entries =
      ["a", "b"] := by
    decide +kernel
  have lines : ∀ entry ∈ ["a", "b"], IsLine entry := by
    simp [IsLine]
  obtain ⟨exists_save, round⟩ := entries_load_of_save.2 2
    [.add "x", .add "a", .add "a", .add " ", .add "b"] .empty "h"
  obtain ⟨saved, isSaved⟩ := exists_save.2 ⟨_, opened⟩
  obtain ⟨loaded, isLoaded, same, ⟨again, isAgain⟩, bytes⟩ := round saved isSaved
  rw [kept] at same bytes
  exact ⟨first, entries_load_of_save.1 _ _ _ first, _, saved, loaded, again, rfl, kept, isSaved,
    isLoaded, same.2 lines, isAgain, bytes lines _ _ _ isAgain⟩

end History

end ScriptConsole

import ScriptConsole.History

/-!
# Files that are opened for writing

To open a file finds its place and its bytes, and to put the same bytes at its place
again changes no file.  A file that was opened for writing is read as it was opened.
-/

namespace ScriptConsole

namespace Disk

/-- A walk that ends at a file, or where one could be, ends at the file that is put
there. -/
theorem walk_put {disk : Disk} {here place : DiskPlace} {names : List String}
    {entry : Option DiskEntry} (walked : disk.walk here names = .ok (place, entry))
    (noDirectory : entry ≠ some .directory) (bytes : ByteArray) :
    disk.find? place = entry ∧
      (disk.put place (.file bytes)).walk here names = .ok (place, some (.file bytes)) := by
  induction names generalizing here with
  | nil =>
      cases walked
      exact absurd rfl noDirectory
  | cons name rest ih =>
      rw [walk] at walked ⊢
      split at walked
      · rename_i here'
        rw [if_pos here']
        exact ih walked
      · rename_i noDot
        rw [if_neg noDot]
        split at walked
        · rename_i parent
          rw [if_pos parent]
          exact ih walked
        · rename_i noParent
          rw [if_neg noParent]
          split at walked
          · rename_i isDirectory
            obtain ⟨found, further⟩ := ih walked
            have other : here ++ [name] ≠ place := by
              rintro rfl
              exact noDirectory (found.symm.trans isDirectory)
            rw [find?_put_of_ne other, isDirectory]
            exact ⟨found, further⟩
          · rename_i old isFile
            split at walked
            · rename_i last
              cases walked
              rw [find?_put_self]
              exact ⟨isFile, if_pos last⟩
            · cases walked
          · rename_i missing
            split at walked
            · rename_i last
              cases walked
              rw [find?_put_self]
              exact ⟨missing, if_pos last⟩
            · cases walked

theorem resolve_put {disk : Disk} {path : String} {place : DiskPlace} {entry : Option DiskEntry}
    (resolved : disk.resolve path = .ok (place, entry)) (noDirectory : entry ≠ some .directory)
    (bytes : ByteArray) :
    disk.find? place = entry ∧
      (disk.put place (.file bytes)).resolve path = .ok (place, some (.file bytes)) := by
  unfold resolve at resolved ⊢
  split at resolved
  · cases resolved
  · rename_i named
    rw [if_neg named]
    exact walk_put resolved noDirectory bytes

theorem locate_eq_ok_iff {disk : Disk} {path : String} {place : DiskPlace}
    {entry : Option DiskEntry} :
    disk.locate path = .ok (place, entry) ↔
      disk.resolve path = .ok (place, entry) ∧ disk.refusal? place = none := by
  unfold locate
  cases disk.resolve path with
  | error fault => simp
  | ok found =>
      obtain ⟨other, otherEntry⟩ := found
      dsimp only
      cases refused : disk.refusal? other with
      | some reason =>
          constructor
          · rintro ⟨⟩
          · rintro ⟨⟨⟩, allowed⟩
            cases refused.symm.trans allowed
      | none =>
          constructor
          · rintro ⟨⟩
            exact ⟨rfl, refused⟩
          · rintro ⟨⟨⟩, -⟩
            rfl

theorem locate_put {disk : Disk} {path : String} {place : DiskPlace} {entry : Option DiskEntry}
    (located : disk.locate path = .ok (place, entry)) (noDirectory : entry ≠ some .directory)
    (bytes : ByteArray) :
    disk.find? place = entry ∧
      (disk.put place (.file bytes)).locate path = .ok (place, some (.file bytes)) := by
  obtain ⟨resolved, allowed⟩ := locate_eq_ok_iff.1 located
  obtain ⟨found, again⟩ := resolve_put resolved noDirectory bytes
  exact ⟨found, locate_eq_ok_iff.2 ⟨again, allowed⟩⟩

theorem locate_of_openFile {disk : Disk} {path : String} {place : DiskPlace}
    {bytes : ByteArray} (opened : disk.openFile path = .ok (place, bytes)) :
    namesDirectory path = false ∧
      (disk.locate path = .ok (place, none) ∧ bytes = ByteArray.empty ∨
        disk.locate path = .ok (place, some (.file bytes))) := by
  unfold openFile at opened
  split at opened
  · cases opened
  · rename_i located
    split at opened
    · cases opened
    · rename_i plain
      cases opened
      exact ⟨by simpa using plain, .inl ⟨located, rfl⟩⟩
  · cases opened
  · rename_i located
    split at opened
    · cases opened
    · rename_i plain
      cases opened
      exact ⟨by simpa using plain, .inr located⟩

theorem locate_put_of_openFile {disk : Disk} {path : String} {place : DiskPlace}
    {old : ByteArray} (opened : disk.openFile path = .ok (place, old)) (bytes : ByteArray) :
    (disk.put place (.file bytes)).locate path = .ok (place, some (.file bytes)) := by
  rcases (locate_of_openFile opened).2 with ⟨missing, -⟩ | found
  · exact (locate_put missing (by simp) bytes).2
  · exact (locate_put found (by simp) bytes).2

/-- What is put where a file was opened for writing can be read there. -/
theorem read_put_of_openFile {disk : Disk} {path : String} {place : DiskPlace}
    {old : ByteArray} (opened : disk.openFile path = .ok (place, old)) (bytes : ByteArray) :
    (disk.put place (.file bytes)).read path = .ok bytes := by
  simp [read, locate_put_of_openFile opened, (locate_of_openFile opened).1]

theorem openFile_put_of_openFile {disk : Disk} {path : String} {place : DiskPlace}
    {old : ByteArray} (opened : disk.openFile path = .ok (place, old)) (bytes : ByteArray) :
    (disk.put place (.file bytes)).openFile path = .ok (place, bytes) := by
  simp [openFile, locate_put_of_openFile opened, (locate_of_openFile opened).1]

/-- To make sure that a file that is not empty can be written changes no file. -/
theorem find?_put_of_openFile {disk : Disk} {path : String} {place : DiskPlace}
    {bytes : ByteArray} (opened : disk.openFile path = .ok (place, bytes))
    (full : bytes ≠ ByteArray.empty) (other : DiskPlace) :
    (disk.put place (.file bytes)).find? other = disk.find? other := by
  by_cases same : other = place
  · subst same
    rcases (locate_of_openFile opened).2 with ⟨-, empty⟩ | found
    · exact absurd empty full
    · rw [find?_put_self, (locate_put found (by simp) bytes).1]
  · exact find?_put_of_ne same _

/-- Why a file cannot keep a history: it cannot be opened, or it is no text. -/
def historyFailure? (disk : Disk) (path : String) : Option HistoryFailure :=
  match disk.openFile path with
  | .error fault => some (.notOpened path fault.message)
  | .ok (_, bytes) =>
      match Text.decode? bytes with
      | none => some (.notLoaded path notTextMessage)
      | some _ => none

end Disk

end ScriptConsole

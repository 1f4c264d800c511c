/-!
# Files

A disk holds files and directories under paths.  A path is walked name by name:
every name but the last has to be that of a directory.  What a path leads to may
be refused, whatever is there.
-/

namespace ScriptConsole

inductive DiskFault where
  | notFound
  | notDirectory
  | isDirectory
  /-- The disk refuses to open a file, or to read it. -/
  | refused (reason : String)
  deriving DecidableEq, Repr

namespace DiskFault

def message : DiskFault → String
  | notFound => "No such file or directory (os error 2)"
  | notDirectory => "Not a directory (os error 20)"
  | isDirectory => "Is a directory (os error 21)"
  | refused reason => reason

end DiskFault

inductive DiskEntry where
  | file (bytes : ByteArray)
  | directory

/-- The names that lead to an entry, from the working directory on, or from the root, whose
name is empty. -/
abbrev DiskPlace : Type :=
  List String

structure Disk where
  entries : List (DiskPlace × DiskEntry)
  /-- Why a file at a place is refused. -/
  refusal? : DiskPlace → Option String := fun _ => none
  deriving Inhabited

namespace Disk

def empty : Disk where
  entries := []

def find? (disk : Disk) (place : DiskPlace) : Option DiskEntry :=
  (disk.entries.find? (·.1 = place)).map (·.2)

def put (disk : Disk) (place : DiskPlace) (entry : DiskEntry) : Disk :=
  { disk with entries := (place, entry) :: disk.entries.filter (·.1 ≠ place) }

def remove (disk : Disk) (place : DiskPlace) : Disk :=
  { disk with entries := disk.entries.filter (·.1 ≠ place) }

def names (path : String) : List String :=
  ((path.splitOn "/").filter fun name => !name.isEmpty)

def start (path : String) : DiskPlace :=
  if path.toList.head? = some '/' then [""] else []

def above (place : DiskPlace) : DiskPlace :=
  if place = [""] then place
  else if place = [] ∨ place.getLast? = some ".." then place ++ [".."]
  else place.dropLast

/-- Walk names from a directory to the place and the entry of the last. -/
def walk (disk : Disk) (here : DiskPlace) :
    List String → Except DiskFault (DiskPlace × Option DiskEntry)
  | [] => .ok (here, some .directory)
  | name :: rest =>
      if name = "." then disk.walk here rest
      else if name = ".." then disk.walk (above here) rest
      else
        match disk.find? (here ++ [name]) with
        | some .directory => disk.walk (here ++ [name]) rest
        | some (.file bytes) =>
            if rest.isEmpty then .ok (here ++ [name], some (.file bytes))
            else .error .notDirectory
        | none =>
            if rest.isEmpty then .ok (here ++ [name], none) else .error .notFound

def resolve (disk : Disk) (path : String) :
    Except DiskFault (DiskPlace × Option DiskEntry) :=
  if path.isEmpty then .error .notFound else disk.walk (start path) (names path)

/-- The place and the entry of a path, unless it is refused. -/
def locate (disk : Disk) (path : String) :
    Except DiskFault (DiskPlace × Option DiskEntry) :=
  match disk.resolve path with
  | .error fault => .error fault
  | .ok (place, entry) =>
      match disk.refusal? place with
      | some reason => .error (.refused reason)
      | none => .ok (place, entry)

/-- Whether a path can only be that of a directory. -/
def namesDirectory (path : String) : Bool :=
  path.toList.getLast? == some '/'

def contains (disk : Disk) (path : String) : Bool :=
  match disk.resolve path with
  | .ok (_, some .directory) => true
  | .ok (_, some (.file _)) => !namesDirectory path
  | _ => false

def read (disk : Disk) (path : String) : Except DiskFault (ByteArray) :=
  match disk.locate path with
  | .error fault => .error fault
  | .ok (_, none) => .error .notFound
  | .ok (_, some .directory) => .error .isDirectory
  | .ok (_, some (.file bytes)) =>
      if namesDirectory path then .error .notDirectory else .ok bytes

/-- Open a file for writing, and the place and the bytes of it. -/
def openFile (disk : Disk) (path : String) :
    Except DiskFault (DiskPlace × ByteArray) :=
  match disk.locate path with
  | .error fault => .error fault
  | .ok (place, none) =>
      if namesDirectory path then .error .isDirectory else .ok (place, ByteArray.empty)
  | .ok (_, some .directory) => .error .isDirectory
  | .ok (place, some (.file bytes)) =>
      if namesDirectory path then .error .notDirectory else .ok (place, bytes)

/-- Make sure that a file can be written; a missing file is made. -/
def touch (disk : Disk) (path : String) : Except DiskFault Disk :=
  match disk.openFile path with
  | .error fault => .error fault
  | .ok (place, bytes) => .ok (disk.put place (.file bytes))

def write (disk : Disk) (path : String) (bytes : ByteArray) : Except DiskFault Disk :=
  match disk.openFile path with
  | .error fault => .error fault
  | .ok (place, _) => .ok (disk.put place (.file bytes))

/-- Make the directories that names lead to, from a directory on; the place of the
last of them. -/
def makeDirectories (disk : Disk) (here : DiskPlace) : List String → Disk × DiskPlace
  | [] => (disk, here)
  | name :: rest =>
      if name = "." then disk.makeDirectories here rest
      else if name = ".." then disk.makeDirectories (above here) rest
      else (disk.put (here ++ [name]) .directory).makeDirectories (here ++ [name]) rest

def withDirectory (disk : Disk) (path : String) : Disk :=
  (disk.makeDirectories (start path) (names path)).1

/-- Put a file under a path, and make the directories above it. -/
def withFile (disk : Disk) (path : String) (bytes : ByteArray) : Disk :=
  let (disk, place) := disk.makeDirectories (start path) (names path).dropLast
  disk.put (place ++ [(names path).getLastD "."]) (.file bytes)

theorem find?_put_self (disk : Disk) (place : DiskPlace) (entry : DiskEntry) :
    (disk.put place entry).find? place = some entry := by
  simp [find?, put]

theorem find?_put_of_ne {disk : Disk} {place other : DiskPlace} (h : other ≠ place)
    (entry : DiskEntry) : (disk.put place entry).find? other = disk.find? other := by
  have hp : ∀ e : DiskPlace × DiskEntry,
      (!decide (e.1 = place) && decide (e.1 = other)) = decide (e.1 = other) := by
    intro e
    by_cases ho : e.1 = other <;> simp [ho, h]
  simp [find?, put, List.find?_filter, Ne.symm h, hp]

end Disk

end ScriptConsole

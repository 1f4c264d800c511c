import ScriptConsole.Text.Search

/-!
# Paths

Paths are texts whose names stand between slashes.  A path that starts with a
slash is absolute.
-/

namespace ScriptConsole.Path

/-- A path seen from a directory; an absolute path stays as it is. -/
def join (directory path : String) : String :=
  if path.toList.head? = some '/' || directory.isEmpty then path
  else if directory.toList.getLast? = some '/' then directory ++ path
  else directory ++ "/" ++ path

def directory (path : String) : String :=
  let names := Text.cutAtChar '/' path.toList
  if names.length = 1 then "."
  else String.ofList (List.intercalate ['/'] (names.dropLast ++ [[]]))

def isIdle (name : List Char) : Bool :=
  name.isEmpty || name == ['.']

def trimmed (path : List Char) : List Char :=
  let names := (Text.cutAtChar '/' path).dropWhile isIdle
  List.intercalate ['/'] (names.reverse.dropWhile isIdle).reverse

/-- What follows the sign for the home directory, if a path opens with it. -/
def afterHome? : List Char → Option (List Char)
  | ['~'] => some []
  | '~' :: '/' :: rest => some (trimmed rest)
  | _ => none

/-- A path with the home directory, if there is one, in the place of its sign. -/
def expandHome (home : Option String) (path : String) : String :=
  match home, afterHome? path.toList with
  | some home, some rest => join home (String.ofList rest)
  | _, _ => path

end ScriptConsole.Path

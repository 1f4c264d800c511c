import ScriptConsole.Launch

/-!
# The program

The files that a run may use are read before it, and the history is written
after it.
-/

namespace ScriptConsole

def readEnvironment : IO Environment :=
  Environment.consulted.filterMapM fun name =>
    return (← IO.getEnv name).map fun value => (name, value)

def readPath (disk : Disk) (path : String) : IO Disk := do
  try
    let found ← IO.FS.realPath path
    if ← found.isDir then return disk.withDirectory path
    else return disk.withFile path (← IO.FS.readBinFile path)
  catch _ => return disk

def readFile (disk : Disk) (path : String) : IO Disk := do
  readPath (← readPath disk (Path.directory path)) path

def writeFile (earlier later : Disk) (path : String) : IO Unit :=
  match earlier.read path, later.read path with
  | _, .error _ => return ()
  | .ok old, .ok new => if old.toList = new.toList then return () else IO.FS.writeBinFile path new
  | .error _, .ok new => IO.FS.writeBinFile path new

end ScriptConsole

open ScriptConsole in
def main (arguments : List String) : IO UInt32 := do
  let environment ← readEnvironment
  let settings ← (Config.path? environment).elim (pure .empty) (readFile .empty)
  let launch : Launch := ⟨arguments, environment, [], settings⟩
  let path? := launch.historyPath?
  let disk ← path?.elim (pure settings) (readFile settings)
  let input ← if launch.readsInput then (← IO.getStdin).readBinToEnd else pure .empty
  let done := Launch.run { launch with input := input.toList, disk := disk }
  (← IO.getStdout).putStr done.output
  (← IO.getStderr).putStr done.messages
  path?.forM (writeFile disk done.disk)
  return done.code.toUInt32

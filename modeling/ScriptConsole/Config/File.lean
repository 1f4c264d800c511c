import ScriptConsole.Config
import ScriptConsole.History

/-!
# Where settings are kept

The environment tells where the settings of a user are: a directory for all
settings comes first, then the home directory.
-/

namespace ScriptConsole

/-- The variables that a program is run with. -/
abbrev Environment : Type :=
  Dictionary String

namespace Environment

/-- The names of the variables that are looked at. -/
def consulted : List String :=
  ["XDG_CONFIG_HOME", "HOME", "APPDATA"]

def home? (environment : Environment) : Option String :=
  Dictionary.find? "HOME" environment

end Environment

namespace Config

def directory? (environment : Environment) : Option String :=
  match Dictionary.find? "XDG_CONFIG_HOME" environment with
  | some directory => some (Path.join directory "tsrepl")
  | none =>
      match environment.home? with
      | some home => some (Path.join (Path.join home ".config") "tsrepl")
      | none => (Dictionary.find? "APPDATA" environment).map (Path.join · "tsrepl")

def path? (environment : Environment) : Option String :=
  (directory? environment).map (Path.join · "config.toml")

def loadFrom (environment : Environment) (disk : Disk) (path : String) :
    Except ConfigFailure Config :=
  match disk.read path with
  | .error fault => .error (.unreadable fault.message)
  | .ok bytes =>
      match Text.decode? bytes with
      | some text => parse environment.home? text
      | none => .error (.unreadable notTextMessage)

/-- The settings of the user; there need not be a file of them. -/
def load (environment : Environment) (disk : Disk) : Except ConfigFailure Config :=
  match path? environment with
  | some path => if disk.contains path then loadFrom environment disk path else .ok standard
  | none => .ok standard

end Config

end ScriptConsole

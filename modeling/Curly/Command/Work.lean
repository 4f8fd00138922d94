import Curly.Command.Failure
import Curly.Host.Basic
import Curly.Version

/-!
# Work

What the tasks have in common. The settings are found first: in the file that the arguments name,
which has to be good, or in the user's own file, where a fault is only reported.
-/

namespace Curly.Command

variable {m : Type → Type} [Monad m]

/-- Work that may fail. -/
abbrev Work (m : Type → Type) := ExceptT Failure m

/-- Shows the entries of the journal that were asked for. -/
def note (host : Host m) (level : Journal.Level) (entries : List Journal.Entry) : m Unit :=
  (entries.filter (·.isAt level)).forM fun e => host.report (e.line ++ "\n")

/-- Shows entries about the program's own work, which are made only for a reader of such. -/
def noteWork (host : Host m) (level : Journal.Level) (entries : Unit → List Journal.Entry) :
    m Unit :=
  if level.rank ≤ Journal.Level.debug.rank then note host level (entries ()) else return

/-- The settings in a file. -/
def loadSettings (host : Host m) (path : String) : m (Except LoadError Settings) := do
  match (← host.read path).bind Text.ofBytes with
  | .error e => return .error (.file e)
  | .ok text => return (Settings.parseWith host.readSettings text).mapError .content

/-- A path below a directory. -/
def below (directory path : String) : String :=
  if directory.isEmpty || directory.toList.getLast? == some '/' then directory ++ path
  else directory ++ "/" ++ path

/-- Where the user's settings file is in the directory of such files. -/
def settingsFile : String := commandName ++ "/config.toml"

/-- The user's own settings file, if the environment tells where such files are. -/
def userPath? (host : Host m) : m (Option String) := do
  if let some dir ← host.valueOf "XDG_CONFIG_HOME" then
    return some (below dir settingsFile)
  if let some dir ← host.valueOf "HOME" then
    return some (below dir (".config/" ++ settingsFile))
  return (← host.valueOf "APPDATA").map (below · settingsFile)

/-- The user's own settings. A fault in the file is reported, and the standard settings hold. -/
def userSettings (host : Host m) : m Settings := do
  match ← userPath? host with
  | none => return .standard
  | some path =>
    if ← host.contains path then
      match ← loadSettings host path with
      | .ok settings => return settings
      | .error e =>
        host.report ("warning: ignoring user config: " ++ e.message ++ "\n")
        return .standard
    else return .standard

/-- The settings that hold for a command. -/
def settings (host : Host m) (options : Options) : Work m Settings := do
  match options.config with
  | none => ExceptT.lift (userSettings host)
  | some path =>
    match ← ExceptT.lift (loadSettings host path) with
    | .ok settings => return settings
    | .error e => throw (.badSettings path e)

/-- The source in a file. -/
def readSource (host : Host m) (path : String) : Work m Source := do
  match (← host.read path).bind Text.ofBytes with
  | .ok text => return ⟨path, text⟩
  | .error e => throw (.unreadable path e)

/-- The result of a step on a source, whose error ends the command. -/
def orReject {α : Type} (src : Source) (result : Except SourceError α) : Work m α :=
  match result with
  | .ok a => return a
  | .error e => throw (.rejected (e.render src))

end Curly.Command

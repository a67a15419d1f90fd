import PoolLint.Files.Tree
import PoolLint.Report.Data
import PoolLint.Serial.TomlFormat

/-!
# Where settings come from

The settings file of the user comes first and that of the project overlays it. The latter is
searched for from the checked path upwards, unless it is named.
-/

namespace PoolLint

/-- Where the user keeps settings, as far as the environment tells. -/
structure UserDirs where
  configHome : Option String
  home : Option String
  appData : Option String
deriving DecidableEq, Repr

namespace UserDirs

/-- The directory of the user's settings file. -/
def settingsDir? (dirs : UserDirs) : Option String :=
  dirs.configHome.map (Path.join · toolName)
    <|> dirs.home.map (fun home => Path.join (Path.join home ".config") toolName)
    <|> dirs.appData.map (Path.join · toolName)

/-- The user's settings file, whether it exists or not. -/
def settingsPath? (dirs : UserDirs) : Option String :=
  dirs.settingsDir?.map (Path.join · "config.toml")

end UserDirs

/-- Why settings cannot be read or written. -/
inductive SettingsError where
  | inaccessible (path : String)
  | malformed (path : String)
deriving DecidableEq, Repr

/-- The wording of a settings error. -/
def SettingsError.message : SettingsError → String
  | inaccessible path => s!"Failed to access config {path}"
  | malformed path => s!"Config parse error in {path}"

/-- The name of the settings file of a project. -/
def projectFileName : String :=
  "recycle-lint.toml"

/-- Reads a settings file from text; the path only serves for messages. -/
def parseSettings (text path : String) : Except SettingsError SettingsFile :=
  match Serial.readSettings text with
  | some file => .ok file
  | none => .error (.malformed path)

namespace FileSystem

/-- The settings file of the project that a path belongs to: the nearest one at or above
it. -/
def findProjectSettings? (fs : FileSystem) (path : String) : Option String := do
  let start ← if fs.isFile path then Path.parent? path else some path
  ((Path.ancestors start).map (Path.join · projectFileName)).find? fs.isFile

/-- Loads a settings file. -/
def loadSettings (fs : FileSystem) (path : String) : Except SettingsError SettingsFile :=
  match fs.readText? path with
  | none => .error (.inaccessible path)
  | some text => parseSettings text path

/-- Overlays a settings file, if there is one to overlay. -/
def overlay (fs : FileSystem) (resolved : ResolvedSettings) :
    Option String → Except SettingsError ResolvedSettings
  | none => .ok resolved
  | some path => return resolved.apply (← fs.loadSettings path) path

/-- The settings for a path. A settings file that is named takes the place of the project's
and must exist; that of the user may be missing. -/
def resolveSettings (fs : FileSystem) (dirs : UserDirs) (named : Option String) (path : String) :
    Except SettingsError ResolvedSettings := do
  let resolved ← fs.overlay .default (dirs.settingsPath?.filter fs.isFile)
  fs.overlay resolved (named <|> fs.findProjectSettings? path)

/-- Writes a settings file that states all defaults. -/
def writeDefaultSettings (fs : FileSystem) (path : String) : Except SettingsError FileSystem :=
  match fs.write? path Serial.defaultSettingsText with
  | some fs => .ok fs
  | none => .error (.inaccessible path)

end FileSystem

end PoolLint

import PoolLint.Serial.Settings
import PoolLint.Toml.Reader

/-!
# Settings files

Settings are read from settings text. A record is a table; an array of field values is
accepted as well, and what it holds beyond the fields is passed over. A date counts as a
record none of whose fields is given.
-/

namespace PoolLint.Serial

namespace TomlFormat

/-- The fields of a record. -/
def record (names : List String) : Toml → Option (Record Toml)
  | .table entries => do return ⟨← orderFields names entries, false⟩
  | .array items => some ⟨(items.take names.length).map some, true⟩
  | .date => some ⟨[], false⟩
  | _ => none

/-- The name of a variant with its content, if it has any. -/
def variant? : Toml → Option (String × Option Toml)
  | .string name => some (name, none)
  | .table [(name, v)] => some (name, some v)
  | _ => none

/-- An empty table or array. -/
def isEmpty : Toml → Bool
  | .table [] | .array [] => true
  | _ => false

/-- The content of a variant. -/
def content (v : Toml) : Option Toml := do
  (← variant? v).2

end TomlFormat

/-- Settings text as a data format. -/
def tomlFormat : Format Toml where
  text
    | .string s => some s
    | _ => none
  bool
    | .bool b => some b
    | _ => none
  nat bits
    | .integer n => unsigned? bits n
    | _ => none
  int bits
    | .integer n => signed? bits n
    | _ => none
  list
    | .array items => some items
    | _ => none
  optional v := some (some v)
  record _ := TomlFormat.record
  tag v := (TomlFormat.variant? v).map (·.1)
  isBare v :=
    match TomlFormat.variant? v with
    | some (_, none) => true
    | some (_, some w) => TomlFormat.isEmpty w
    | none => false
  content := TomlFormat.content
  contentRecord _ names v := (TomlFormat.content v).bind (TomlFormat.record names)
  variantRecord names v := (TomlFormat.content v).bind (TomlFormat.record names)

/-- Reads a settings file. -/
def readSettings (text : String) : Option SettingsFile :=
  (Toml.parse? text).bind (decodeSettingsFile tomlFormat)

/-- The settings file that states all defaults. -/
def defaultSettingsText : String :=
  let s := LintSettings.default
  "[lint]\nenabled = " ++ toString s.enabled ++ "\ndisabled_kinds = []\nseverity = "
    ++ Json.quoted s.severity.name ++ "\nparallel = " ++ toString s.parallel ++ "\nrescan = "
    ++ toString s.rescan ++ "\nextra_kinds = []\n\n[log]\n"

end PoolLint.Serial

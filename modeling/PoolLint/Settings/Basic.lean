import PoolLint.Check.Checker

/-!
# Settings

The settings of a check start from defaults and are overlaid by layers: what a layer sets
replaces what was set before, and the extra kinds of all layers add up.
-/

namespace PoolLint

/-- The settings in effect. -/
structure LintSettings where
  /-- Nothing is checked otherwise. -/
  enabled : Bool
  /-- Kinds, by name, that are never reported. -/
  disabledKinds : List String
  severity : Severity
  parallel : Bool
  /-- The second pass is made where it is asked for. -/
  rescan : Bool
  /-- Kinds beside the built-in ones or in place of those of the same name. -/
  extraKinds : List ResourceKind
deriving DecidableEq, Repr

/-- The settings of one file; what is not set is inherited. -/
structure LintLayer where
  enabled : Option Bool
  disabledKinds : Option (List String)
  severity : Option Severity
  parallel : Option Bool
  rescan : Option Bool
  extraKinds : List ResourceKind
deriving DecidableEq, Repr

/-- A layer that sets nothing. -/
def LintLayer.empty : LintLayer :=
  ⟨none, none, none, none, none, []⟩

namespace LintSettings

/-- The settings without any layer. -/
def default : LintSettings where
  enabled := true
  disabledKinds := []
  severity := .warning
  parallel := true
  rescan := true
  extraKinds := []

/-- Overlays a layer. -/
def apply (s : LintSettings) (layer : LintLayer) : LintSettings where
  enabled := layer.enabled.getD s.enabled
  disabledKinds := layer.disabledKinds.getD s.disabledKinds
  severity := layer.severity.getD s.severity
  parallel := layer.parallel.getD s.parallel
  rescan := layer.rescan.getD s.rescan
  extraKinds := s.extraKinds ++ layer.extraKinds

/-- The kinds that are looked for. -/
def resourceTable (s : LintSettings) : ResourceTable :=
  .configured s.disabledKinds s.extraKinds

/-- A kind of that name is built in or set up by a layer. -/
def knowsKind (s : LintSettings) (name : String) : Bool :=
  ResourceTable.builtin.names.contains name || s.extraKinds.any (·.name == name)

/-- The log lines of disabled kinds that do not exist. -/
def unknownKindWarnings (s : LintSettings) : List String :=
  (s.disabledKinds.filter fun name => !s.knowsKind name).map fun name =>
    s!"disabled_kinds names unknown resource kind `{name}`"

/-- How classes are checked under these settings. -/
def checkOptions (s : LintSettings) : CheckOptions :=
  ⟨s.parallel, s.rescan, s.severity⟩

/-- The diagnostics of one class. -/
def checkUnit (s : LintSettings) (unit : Bytecode.ClassFile) : List Diagnostic :=
  if s.enabled then (PoolLint.checkUnit s.resourceTable s.checkOptions unit).diagnostics else []

/-- The diagnostics of several classes; the main switch is left to the caller. -/
def checkUnits (s : LintSettings) (units : List Bytecode.ClassFile) : List Diagnostic :=
  PoolLint.checkUnits s.resourceTable s.checkOptions units

/-- The log lines of checking several classes. -/
def checkWarnings (s : LintSettings) (units : List Bytecode.ClassFile) : List String :=
  s.unknownKindWarnings ++ units.flatMap (flowWarnings s.resourceTable)

end LintSettings

/-- The content of a settings file. -/
structure SettingsFile where
  lint : LintLayer
  logLevel : Option LogLevel
deriving DecidableEq, Repr

/-- Settings with the log level and the files they come from, the least important first. -/
structure ResolvedSettings where
  lint : LintSettings
  logLevel : Option LogLevel
  sources : List String
deriving DecidableEq, Repr

namespace ResolvedSettings

/-- The defaults, from no file. -/
def default : ResolvedSettings :=
  ⟨.default, none, []⟩

/-- Overlays a settings file. -/
def apply (r : ResolvedSettings) (file : SettingsFile) (path : String) : ResolvedSettings where
  lint := r.lint.apply file.lint
  logLevel := file.logLevel <|> r.logLevel
  sources := r.sources ++ [path]

end ResolvedSettings

end PoolLint

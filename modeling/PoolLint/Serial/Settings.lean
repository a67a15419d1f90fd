import PoolLint.Serial.JsonFormat
import PoolLint.Settings.Basic

/-!
# Decoding and writing settings and diagnostics

The decoders work on any data format. The writers produce JSON with every field present.
-/

namespace PoolLint.Serial

open PoolLint

variable {F : Type} (fmt : Format F)

/-! ## Decoders -/

/-- Decodes a call pattern. -/
def decodePattern (v : F) : Option CallPattern := do
  let r ← fmt.record "CallPattern" ["owner", "name", "desc_suffix"] v
  return {
    owner := ← r.required 0 fmt.text
    name := ← r.required 1 fmt.text
    descSuffix := ← fmt.optionalField r 2 fmt.text }

/-- Decodes a release; name and descriptor default to those of `recycle()V`. -/
def decodeRelease (v : F) : Option ReleaseCall := do
  let r ← fmt.record "ReleaseCall" ["name", "desc"] v
  return {
    name := ← r.withDefault 0 ReleaseCall.recycle.name fmt.text
    desc := ← r.withDefault 1 ReleaseCall.recycle.desc fmt.text }

/-- Decodes a resource kind. -/
def decodeKind (v : F) : Option ResourceKind := do
  let r ← fmt.record "ResourceKind"
    ["name", "owner", "obtain", "release", "flow_checked", "preserving"] v
  return {
    name := ← r.required 0 fmt.text
    owner := ← r.required 1 fmt.text
    obtain := ← r.required 2 (fmt.listOf (decodePattern fmt))
    release := ← r.withDefault 3 .recycle (decodeRelease fmt)
    flowChecked := ← r.withDefault 4 true fmt.bool
    preserving := ← r.withDefault 5 [] (fmt.listOf (decodePattern fmt)) }

/-- Decodes a severity. -/
def decodeSeverity (v : F) : Option Severity :=
  fmt.bareVariant Severity.ofName? v

/-- Decodes a log level. -/
def decodeLogLevel (v : F) : Option LogLevel :=
  fmt.bareVariant LogLevel.ofName? v

/-- Decodes a layer of settings. -/
def decodeLayer (v : F) : Option LintLayer := do
  let r ← fmt.record "LintLayer"
    ["enabled", "disabled_kinds", "severity", "parallel", "rescan", "extra_kinds"] v
  return {
    enabled := ← fmt.optionalField r 0 fmt.bool
    disabledKinds := ← fmt.optionalField r 1 (fmt.listOf fmt.text)
    severity := ← fmt.optionalField r 2 (decodeSeverity fmt)
    parallel := ← fmt.optionalField r 3 fmt.bool
    rescan := ← fmt.optionalField r 4 fmt.bool
    extraKinds := ← r.withDefault 5 [] (fmt.listOf (decodeKind fmt)) }

/-- Decodes the log settings, which are a level. -/
def decodeLog (v : F) : Option (Option LogLevel) := do
  let r ← fmt.record "LogConfig" ["level"] v
  fmt.optionalField r 0 (decodeLogLevel fmt)

/-- Decodes a settings file. -/
def decodeSettingsFile (v : F) : Option SettingsFile := do
  let r ← fmt.record "ConfigFile" ["lint", "log"] v
  return {
    lint := ← r.withDefault 0 .empty (decodeLayer fmt)
    logLevel := ← r.withDefault 1 none (decodeLog fmt) }

/-- Decodes a location. -/
def decodeLocation (v : F) : Option Location := do
  let r ← fmt.record "SourceLocation" ["file", "class", "method", "instruction", "line"] v
  return {
    file := ← fmt.nullableField r 0 fmt.text
    className := ← r.required 1 fmt.text
    method := ← r.required 2 fmt.text
    instruction := ← r.required 3 fmt.index
    line := ← fmt.nullableField r 4 (fmt.nat 32) }

/-- Decodes a diagnostic. -/
def decodeDiagnostic (v : F) : Option Diagnostic := do
  let r ← fmt.record "Diagnostic"
    ["severity", "code", "message", "help", "location", "resource"] v
  return {
    severity := ← r.required 0 (decodeSeverity fmt)
    code := ← r.required 1 fmt.text
    message := ← r.required 2 fmt.text
    help := ← r.required 3 fmt.text
    location := ← fmt.nullableField r 4 (decodeLocation fmt)
    resource := ← fmt.optionalField r 5 fmt.text }

/-! ## Writers -/

/-- Writes a call pattern. -/
def patternJson (p : CallPattern) : Json :=
  .record [("owner", .text p.owner), ("name", .text p.name),
    ("desc_suffix", .nullable .text p.descSuffix)]

/-- Writes a resource kind. -/
def kindJson (k : ResourceKind) : Json :=
  .record [("name", .text k.name), ("owner", .text k.owner),
    ("obtain", .list patternJson k.obtain),
    ("release", .record [("name", .text k.release.name), ("desc", .text k.release.desc)]),
    ("flow_checked", .bool k.flowChecked), ("preserving", .list patternJson k.preserving)]

/-- Writes a severity. -/
def severityJson (s : Severity) : Json :=
  .text s.name

/-- Writes a log level. -/
def logLevelJson (l : LogLevel) : Json :=
  .text l.name

/-- Writes a layer of settings. -/
def layerJson (l : LintLayer) : Json :=
  .record [("enabled", .nullable .bool l.enabled),
    ("disabled_kinds", .nullable (.list .text) l.disabledKinds),
    ("severity", .nullable severityJson l.severity), ("parallel", .nullable .bool l.parallel),
    ("rescan", .nullable .bool l.rescan), ("extra_kinds", .list kindJson l.extraKinds)]

/-- Writes a settings file. -/
def settingsFileJson (f : SettingsFile) : Json :=
  .record [("lint", layerJson f.lint),
    ("log", .record [("level", .nullable logLevelJson f.logLevel)])]

/-- Writes the settings in effect. -/
def settingsJson (s : LintSettings) : Json :=
  .record [("enabled", .bool s.enabled), ("disabled_kinds", .list .text s.disabledKinds),
    ("severity", severityJson s.severity), ("parallel", .bool s.parallel),
    ("rescan", .bool s.rescan), ("extra_kinds", .list kindJson s.extraKinds)]

/-- Writes a location. -/
def locationJson (l : Location) : Json :=
  .record [("file", .nullable .text l.file), ("class", .text l.className),
    ("method", .text l.method), ("instruction", .nat l.instruction),
    ("line", .nullable .nat l.line)]

/-- Writes a diagnostic. -/
def diagnosticJson (d : Diagnostic) : Json :=
  .record [("severity", severityJson d.severity), ("code", .text d.code),
    ("message", .text d.message), ("help", .text d.help),
    ("location", .nullable locationJson d.location), ("resource", .nullable .text d.resource)]

/-- Writes a code with its category in both spellings. -/
def codeEntryJson (e : CodeEntry) : Json :=
  .array [.text e.code, .text e.category.title, .text e.category.name, .text e.messageTemplate,
    .text e.helpTemplate]

/-- Writes an issue. -/
def issueJson (i : Issue) : Json :=
  .record [("id", .text i.id), ("summary", .text i.summary), ("explanation", .text i.explanation),
    ("category", .text i.category.name), ("priority", .nat i.priority),
    ("default_severity", severityJson i.defaultSeverity)]

end PoolLint.Serial

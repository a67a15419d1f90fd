import PoolLint.Command.Arguments
import PoolLint.Files.Check
import PoolLint.Report.LogLine
import PoolLint.Report.Text
import PoolLint.Settings.Source

/-!
# Serving a command line

A run takes the words of the command line and the files as they are, and answers with what is
printed, the exit code and the files as they are afterwards.
-/

namespace PoolLint.Command

/-- What a run is given beside the words of its command line. -/
structure Surroundings where
  files : FileSystem
  userDirs : UserDirs
  /-- The output is read by a person and may be coloured. -/
  terminal : Bool
deriving Repr

/-- Why a run fails. -/
inductive RunError where
  | usage (cause : UsageError)
  | configuration (cause : SettingsError)
  | check (cause : CheckError)
  | alreadyExists (path : String)
  | unwritable (path : String)
deriving DecidableEq, Repr

namespace RunError

/-- The wording of a run error without what it stems from. -/
def message : RunError → String
  | usage cause => cause.message
  | configuration _ => "Failed to load configuration"
  | check cause => cause.message
  | alreadyExists path => s!"{path} already exists"
  | unwritable path => s!"Failed to write {path}"

/-- What a run error stems from, in words. -/
def cause? : RunError → Option String
  | configuration cause => some cause.message
  | check cause => some cause.cause.message
  | _ => none

/-- The exit code of a failed run: a faulty command line is told from a faulty input. -/
def exitCode : RunError → Nat
  | usage _ => 2
  | _ => 1

end RunError

/-- What a run leaves behind. -/
structure Outcome where
  exitCode : Nat
  output : String
  warnings : List String
  error : Option RunError
  files : FileSystem
  /-- The path of the one file that differs from before, if there is one. -/
  written : Option String
deriving Repr

namespace Outcome

/-- A run that prints and changes no file. -/
def success (files : FileSystem) (output : String) (warnings : List String) : Outcome :=
  ⟨0, output, warnings, none, files, none⟩

/-- A run that fails and changes no file. -/
def failure (files : FileSystem) (e : RunError) : Outcome :=
  ⟨e.exitCode, "", [], some e, files, none⟩

/-- The outcome of a run that may fail. -/
def ofExcept (files : FileSystem) : Except RunError Outcome → Outcome
  | .ok outcome => outcome
  | .error e => failure files e

end Outcome

/-! ## Output -/

/-- Fills up a text with blanks to a width. -/
def padRight (width : Nat) (text : String) : String :=
  text ++ String.ofList (List.replicate (width - text.length) ' ')

/-- The line of a resource kind. -/
def kindLine (k : ResourceKind) : String :=
  padRight 16 k.name ++ " " ++ (if k.flowChecked then "flow" else "coarse") ++ "  ["
    ++ ", ".intercalate (k.obtain.map fun p => p.owner ++ "." ++ p.name) ++ "]\n"

/-- The text about an issue and the codes. -/
def explanation (i : Issue) (codes : List CodeEntry) : String :=
  s!"{i.id}: {i.summary}\n"
    ++ s!"category: {i.category.title}, priority: {i.priority}/10, "
    ++ s!"severity: {i.defaultSeverity.name}\n\n{i.explanation}\n\n"
    ++ String.join (codes.map fun e => s!"{e.code}  {e.messageTemplate}\n")

/-- The line of the version. -/
def versionLine : String :=
  s!"{toolName} {toolVersion}\n"

/-- How the tool is called. -/
def usageText : String :=
  "Usage: recycle-lint [-v|--verbose] [--log-level LEVEL] COMMAND\n\n"
    ++ "Commands:\n"
    ++ "  check PATH...  check unit files or the directories they lie under\n"
    ++ "  kinds          list the resource kinds that are looked for\n"
    ++ "  explain        explain the check and its codes\n"
    ++ "  init [DIR]     write a settings file that states all defaults\n"
    ++ "  version        print the version\n"

/-- The log lines that are shown: the level of the command line goes before that of the
settings, and without either warnings are shown. -/
def shownWarnings (asked configured : Option LogLevel) (warnings : List String) : List String :=
  if ((asked <|> configured).getD .warn).showsWarnings then warnings.map Report.logLine else []

/-! ## Commands -/

/-- The settings under which a check is made. -/
def CheckArguments.override (args : CheckArguments) (s : LintSettings) : LintSettings :=
  { s with
    parallel := s.parallel && !args.sequential
    rescan := s.rescan && !args.noRescan
    severity := args.severity.getD s.severity }

/-- How the findings of a check are shown. -/
def CheckArguments.render (args : CheckArguments) (terminal : Bool) (ds : List Diagnostic) :
    String :=
  match args.format.getD .text with
  | .json => Diagnostic.reportAll ds ++ "\n"
  | .text => TextStyle.renderAll ⟨terminal && !args.noColor, true, true⟩ ds

/-- Checks files; the exit code tells whether there are findings. -/
def runCheck (env : Surroundings) (asked : Option LogLevel) (args : CheckArguments) :
    Except RunError Outcome := do
  let root := args.paths.headD "."
  let resolved ←
    (env.files.resolveSettings env.userDirs args.config root).mapError .configuration
  let result ←
    (env.files.checkPaths (args.override resolved.lint) args.paths).mapError .check
  return {
    exitCode := if result.diagnostics.isEmpty then 0 else 1
    output := args.render env.terminal result.diagnostics
    warnings := shownWarnings asked resolved.logLevel result.warnings
    error := none
    files := env.files
    written := none }

/-- Lists the kinds of resources that are looked for. -/
def runKinds (env : Surroundings) (asked : Option LogLevel) (config : Option String) :
    Except RunError Outcome := do
  let resolved ← (env.files.resolveSettings env.userDirs config ".").mapError .configuration
  return .success env.files (String.join (resolved.lint.resourceTable.kinds.map kindLine))
    (shownWarnings asked resolved.logLevel resolved.lint.unknownKindWarnings)

/-- Writes a settings file into a directory, where there is none yet. -/
def runInit (env : Surroundings) (dir : String) : Except RunError Outcome := do
  let path := Path.join dir projectFileName
  if env.files.pathExists path then .error (.alreadyExists path)
  else
    let files ← (env.files.writeDefaultSettings path).mapError fun _ => .unwritable path
    return { Outcome.success files s!"Created {path}\n" [] with written := some path }

/-- The paths that a request may look at, those that are read with all that lies below them
among them. -/
def Request.lookups (dirs : UserDirs) : Request → List String
  | .check args =>
    let projectFiles (path : String) := (Path.ancestors path).map (Path.join · projectFileName)
    dirs.settingsPath?.toList ++ args.config.toList ++ args.paths
      ++ args.paths.flatMap projectFiles
  | .kinds config =>
    dirs.settingsPath?.toList ++ config.toList
      ++ (Path.ancestors ".").map (Path.join · projectFileName)
  | .init dir => [Path.join dir projectFileName]
  | .explain | .version | .help => []

/-- Serves a request on a log level. -/
def runRequest (env : Surroundings) (asked : Option LogLevel) :
    Request → Except RunError Outcome
  | .check args => runCheck env asked args
  | .kinds config => runKinds env asked config
  | .explain => .ok (.success env.files (explanation .recycle CodeEntry.all) [])
  | .init dir => runInit env dir
  | .version => .ok (.success env.files versionLine [])
  | .help => .ok (.success env.files usageText [])

/-- The log level that is asked for on the command line. -/
def Invocation.askedLevel (i : Invocation) : Option LogLevel :=
  if i.verbose then some .debug else i.logLevel

/-- Serves a command line. -/
def run (env : Surroundings) (words : List String) : Outcome :=
  .ofExcept env.files do
    let invocation ← (parseArguments words).mapError .usage
    runRequest env invocation.askedLevel invocation.request

end PoolLint.Command

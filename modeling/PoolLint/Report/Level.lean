/-!
# Severities and log levels

Both are given by name on the command line, in any mixture of ASCII cases and with one
alternative spelling each, and by their exact lower-case name in files.
-/

namespace PoolLint

/-- How serious a finding is. -/
inductive Severity where
  | error
  | warning
  | info
  | hint
deriving DecidableEq, Repr

/-- Which log lines are shown. -/
inductive LogLevel where
  | trace
  | debug
  | info
  | warn
  | error
deriving DecidableEq, Repr

/-- A word that names no level. -/
inductive LevelError where
  | unknownSeverity (word : String)
  | unknownLogLevel (word : String)
deriving DecidableEq, Repr

/-- The wording of a level error. -/
def LevelError.message : LevelError → String
  | unknownSeverity word => s!"unknown severity `{word}`"
  | unknownLogLevel word => s!"unknown log level `{word}`"

/-- Folds the ASCII letters of a word to lower case and leaves all others alone. -/
def foldCase (word : String) : String :=
  String.ofList (word.toList.map Char.toLower)

namespace Severity

/-- All severities, the most serious first. -/
def all : List Severity :=
  [error, warning, info, hint]

/-- The name of a severity. -/
def name : Severity → String
  | error => "error"
  | warning => "warning"
  | info => "info"
  | hint => "hint"

/-- A number that grows with the severity. -/
def weight : Severity → Nat
  | error => 4
  | warning => 3
  | info => 2
  | hint => 1

/-- The severity of an exact name. -/
def ofName? (word : String) : Option Severity :=
  all.find? (·.name == word)

/-- The severity a word stands for on the command line; `warn` is short for `warning`. -/
def parse (word : String) : Except LevelError Severity :=
  let folded := foldCase word
  match if folded = "warn" then some warning else ofName? folded with
  | some severity => .ok severity
  | none => .error (.unknownSeverity folded)

end Severity

namespace LogLevel

/-- All log levels, the most talkative first. -/
def all : List LogLevel :=
  [trace, debug, info, warn, error]

/-- The name of a log level. -/
def name : LogLevel → String
  | trace => "trace"
  | debug => "debug"
  | info => "info"
  | warn => "warn"
  | error => "error"

/-- The log level of an exact name. -/
def ofName? (word : String) : Option LogLevel :=
  all.find? (·.name == word)

/-- The log level a word stands for on the command line; `warning` is long for `warn`. -/
def parse (word : String) : Except LevelError LogLevel :=
  let folded := foldCase word
  match if folded = "warning" then some warn else ofName? folded with
  | some level => .ok level
  | none => .error (.unknownLogLevel folded)

/-- Warnings are shown on every level but the quietest. -/
def showsWarnings : LogLevel → Bool
  | error => false
  | _ => true

end LogLevel

end PoolLint

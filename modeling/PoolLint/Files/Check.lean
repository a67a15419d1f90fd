import PoolLint.Files.Collect
import PoolLint.Settings.Basic

/-!
# Checking files

The class files that some paths stand for are collected and loaded before any of them is
checked, so that an unreadable one is noticed also if the check is switched off.
-/

namespace PoolLint

open PoolLint.Bytecode

/-- Why files cannot be checked: collecting them failed, or loading one of them. -/
inductive CheckError where
  | collect (cause : LoadError)
  | load (path : String) (cause : LoadError)
deriving DecidableEq, Repr

namespace CheckError

/-- The wording of a check error without its cause. -/
def message : CheckError → String
  | collect _ => "Failed to collect unit files"
  | load path _ => s!"Failed to load {path}"

/-- What a check error stems from. -/
def cause : CheckError → LoadError
  | collect cause => cause
  | load _ cause => cause

end CheckError

namespace FileSystem

/-- Loads the class files that some paths stand for. -/
def loadUnits (fs : FileSystem) (paths : List String) : Except CheckError (List ClassFile) := do
  let files ← (fs.collectUnits paths).mapError .collect
  files.mapM fun path => (fs.loadUnit path).mapError (.load path)

end FileSystem

/-- What a check of files has to show: its findings, and the log lines of what it could not
do. -/
structure CheckResult where
  diagnostics : List Diagnostic
  warnings : List String
deriving DecidableEq, Repr

/-- Checks the class files that some paths stand for. -/
def FileSystem.checkPaths (fs : FileSystem) (s : LintSettings) (paths : List String) :
    Except CheckError CheckResult := do
  let units ← fs.loadUnits paths
  if s.enabled then return ⟨s.checkUnits units, s.checkWarnings units⟩ else return ⟨[], []⟩

end PoolLint

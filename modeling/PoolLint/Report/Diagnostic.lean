import PoolLint.Report.Level
import PoolLint.Report.Location

/-!
# Diagnostics

A diagnostic is a finding in words. Diagnostics are put in order by location, code and
message before they are shown; those that agree in all three keep the order in which they
were submitted.
-/

namespace PoolLint

/-- One finding, ready to be shown; `resource` names the kind concerned. -/
structure Diagnostic where
  severity : Severity
  code : String
  message : String
  help : String
  location : Option Location
  resource : Option String
deriving DecidableEq, Repr

namespace Diagnostic

/-- The diagnostic on one line, without its location. -/
def display (d : Diagnostic) : String :=
  d.severity.name ++ "[" ++ d.code ++ "]: " ++ d.message

/-- Compares by location, code and message. -/
def compareKey (a b : Diagnostic) : Ordering :=
  (compareOption Location.compare a.location b.location).then <|
  (compareText a.code b.code).then <|
  compareText a.message b.message

/-- Comes no later than the other. -/
def le (a b : Diagnostic) : Bool :=
  (compareKey a b).isLE

/-- Puts diagnostics in order, equal ones in their former order. -/
def sort (ds : List Diagnostic) : List Diagnostic :=
  ds.mergeSort le

end Diagnostic

/-- Diagnostics as they were submitted. -/
structure Collector where
  submitted : List Diagnostic
deriving DecidableEq, Repr

namespace Collector

/-- Nothing submitted yet. -/
def empty : Collector :=
  ⟨[]⟩

/-- Adds one diagnostic. -/
def submit (c : Collector) (d : Diagnostic) : Collector :=
  ⟨c.submitted ++ [d]⟩

/-- Adds a batch of diagnostics. -/
def extend (c : Collector) (ds : List Diagnostic) : Collector :=
  ⟨c.submitted ++ ds⟩

/-- The number of diagnostics. -/
def size (c : Collector) : Nat :=
  c.submitted.length

/-- The diagnostics in order. -/
def sorted (c : Collector) : List Diagnostic :=
  Diagnostic.sort c.submitted

end Collector

end PoolLint

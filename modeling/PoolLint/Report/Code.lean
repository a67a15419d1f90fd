import PoolLint.Report.Template

/-!
# The codes of the check

Every diagnostic has a code from this registry, and all of them belong to one issue.
-/

namespace PoolLint

/-- What a code is about. -/
inductive Category where
  | performance
  | internal
deriving DecidableEq, Repr

namespace Category

/-- The category as a heading. -/
def title : Category → String
  | performance => "Performance"
  | internal => "Internal"

/-- The category as a word in data. -/
def name : Category → String
  | performance => "performance"
  | internal => "internal"

end Category

/-- A code with its templates. -/
structure CodeEntry where
  code : String
  category : Category
  messageTemplate : String
  helpTemplate : String
deriving DecidableEq, Repr

namespace CodeEntry

/-- An instance that is not given back. -/
def leaked : CodeEntry where
  code := "R0001"
  category := .performance
  messageTemplate := "This \x7bkind\x7d should be recycled after use with #recycle()"
  helpTemplate := "call `recycle()` on the \x7bkind\x7d once it is no longer used"

/-- An instance that is used after it was given back. -/
def alreadyRecycled : CodeEntry where
  code := "R0002"
  category := .performance
  messageTemplate := "This \x7bkind\x7d has already been recycled"
  helpTemplate := "the \x7bkind\x7d was returned to its pool earlier on this path; "
    ++ "do not use it afterwards"

/-- A fault of the check itself. -/
def internalError : CodeEntry where
  code := "R9001"
  category := .internal
  messageTemplate := "Internal diagnostic error: \x7bmessage\x7d"
  helpTemplate := "Please report this issue"

/-- All codes. -/
def all : List CodeEntry :=
  [leaked, alreadyRecycled, internalError]

/-- The entry of a code. -/
def find? (code : String) : Option CodeEntry :=
  all.find? (·.code == code)

/-- The codes of a category. -/
def ofCategory (category : Category) : List CodeEntry :=
  all.filter (·.category = category)

/-- A diagnostic of this code. -/
def draft (e : CodeEntry) : Draft :=
  Draft.new e.code e.messageTemplate e.helpTemplate

end CodeEntry

/-- What the check reports about an instance. -/
inductive FindingKind where
  /-- It is neither given back nor handed on. -/
  | leaked
  /-- It is used after it was given back. -/
  | alreadyRecycled
deriving DecidableEq, Repr

namespace FindingKind

/-- The registry entry of a finding. -/
def entry : FindingKind → CodeEntry
  | leaked => .leaked
  | alreadyRecycled => .alreadyRecycled

/-- The code of a finding. -/
def code (k : FindingKind) : String :=
  k.entry.code

/-- The finding in words. -/
def name : FindingKind → String
  | leaked => "leaked"
  | alreadyRecycled => "already recycled"

/-- A finding about a kind of resource. -/
def draft (k : FindingKind) (kind : String) : Draft :=
  { k.entry.draft.param "kind" kind with resource := some kind }

end FindingKind

/-- What users switch on or off. -/
structure Issue where
  id : String
  summary : String
  explanation : String
  category : Category
  /-- From 1 to 10, more important issues higher. -/
  priority : Nat
  defaultSeverity : Severity
deriving DecidableEq, Repr

/-- The one issue of this check. -/
def Issue.recycle : Issue where
  id := "Recycle"
  summary := "Looks for missing recycle() calls on resources"
  explanation := "Many resources, such as TypedArrays, VelocityTrackers, etc., should be "
    ++ "recycled (with a `recycle()` call) after use. This lint check looks for "
    ++ "missing `recycle()` calls."
  category := .performance
  priority := 7
  defaultSeverity := .warning

end PoolLint

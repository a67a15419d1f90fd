import PoolLint.Json.Value
import PoolLint.Report.Code

/-!
# Diagnostics as JSON

For scripts a diagnostic is one flat object: the parts of its location stand beside its
message, and a part that is missing is `null`. Only an empty help text is left out.
-/

namespace PoolLint

/-- The name under which the tool reports. -/
def toolName : String :=
  "recycle-lint"

/-- The version of the tool. -/
def toolVersion : String :=
  "0.1.0"

namespace Diagnostic

/-- The diagnostic as a flat object. -/
def reportFields (d : Diagnostic) : List (String × Json) :=
  [("issue", .text Issue.recycle.id), ("code", .text d.code),
    ("severity", .text d.severity.name), ("message", .text d.message)]
  ++ (if d.help.isEmpty then [] else [("help", .text d.help)])
  ++ [("resource", .nullable .text d.resource),
    ("file", .nullable .text (d.location.bind (·.file))),
    ("class", .nullable .text (d.location.map (·.className))),
    ("method", .nullable .text (d.location.map (·.method))),
    ("instruction", .nullable .nat (d.location.map (·.instruction))),
    ("line", .nullable .nat (d.location.bind (·.line)))]

/-- The text of one diagnostic. -/
def reportText (d : Diagnostic) : String :=
  (Json.record d.reportFields).pretty

/-- The text of a whole report. -/
def reportAll (ds : List Diagnostic) : String :=
  (Json.record [("tool", .text toolName), ("version", .text toolVersion),
    ("diagnostics", .list (fun d => .record d.reportFields) ds)]).pretty

end Diagnostic

end PoolLint

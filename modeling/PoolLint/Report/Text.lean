import PoolLint.Report.Diagnostic

/-!
# Diagnostics as text

A diagnostic takes a line for its message, one for its location and one for its help; a list
of diagnostics ends with a count per severity. On a terminal the parts are coloured.
-/

namespace PoolLint

/-- What is shown of a diagnostic, and whether in colour. -/
structure TextStyle where
  useColors : Bool
  showHelp : Bool
  showInstruction : Bool
deriving DecidableEq, Repr

/-- Everything, in colour. -/
def TextStyle.full : TextStyle :=
  ⟨true, true, true⟩

/-- The colours used. -/
inductive Color where
  | red
  | yellow
  | blue
  | cyan
deriving DecidableEq, Repr

/-- The terminal's number for a foreground colour. -/
def Color.number : Color → Nat
  | red => 31
  | yellow => 33
  | blue => 34
  | cyan => 36

/-- The colour of a severity. -/
def Severity.color : Severity → Color
  | error => .red
  | warning => .yellow
  | info => .blue
  | hint => .cyan

namespace TextStyle

/-- A terminal control sequence. -/
def control (n : Nat) : String :=
  "\x1b[" ++ toString n ++ "m"

/-- Text in bold. -/
def bold (s : TextStyle) (text : String) : String :=
  if s.useColors then control 1 ++ text ++ control 0 else text

/-- Text in a colour; the closing sequence restores the default colour only. -/
def colored (s : TextStyle) (color : Color) (text : String) : String :=
  if s.useColors then control color.number ++ text ++ control 39 else text

/-- The line of severity, code and message. -/
def header (s : TextStyle) (d : Diagnostic) : String :=
  s.bold (s.colored d.severity.color d.severity.name) ++ s.bold ("[" ++ d.code ++ "]") ++ ": "
    ++ d.message ++ "\n"

/-- The line of the location. -/
def locationLine (s : TextStyle) (l : Location) : String :=
  let arrow := "  " ++ s.colored .blue "-->" ++ " " ++ l.origin
  if s.showInstruction then
    arrow ++ " in " ++ l.className ++ "." ++ l.method ++ " at #" ++ toString l.instruction ++ "\n"
  else arrow ++ "\n"

/-- The line of the help text. -/
def helpLine (s : TextStyle) (help : String) : String :=
  if s.showHelp && !help.isEmpty then "  " ++ s.bold "= help:" ++ " " ++ help ++ "\n" else ""

/-- A diagnostic in up to three lines. -/
def render (s : TextStyle) (d : Diagnostic) : String :=
  s.header d ++ (d.location.elim "" s.locationLine) ++ s.helpLine d.help

/-- The number of diagnostics of a severity in words, nothing for none. -/
def countOf (ds : List Diagnostic) (severity : Severity) : Option String :=
  let count := ds.countP (·.severity = severity)
  if count = 0 then none
  else some (toString count ++ " " ++ severity.name ++ if count = 1 then "" else "s")

/-- The closing line. -/
def summary (s : TextStyle) (ds : List Diagnostic) : String :=
  if ds.isEmpty then s.bold "no issues found" ++ "\n"
  else s.bold (", ".intercalate (Severity.all.filterMap (countOf ds))) ++ "\n"

/-- All diagnostics, a blank line after each, and the closing line. -/
def renderAll (s : TextStyle) (ds : List Diagnostic) : String :=
  String.join (ds.map fun d => s.render d ++ "\n") ++ s.summary ds

end TextStyle

end PoolLint

import PoolLint.Report.Diagnostic
import PoolLint.Report.Quoted

/-!
# Diagnostics from templates

A template is text with placeholders, keys between braces. A diagnostic is drafted from a
message and a help template and a list of parameters. Parameters are filled in one after the
other, each into what the earlier ones left, so that a value which looks like a placeholder
is filled in turn by a later parameter.

A message template with a placeholder that has no parameter gives an internal diagnostic that
names the missing keys.
-/

namespace PoolLint

namespace Template

/-- Replaces the occurrences of a non-empty pattern from left to right; `skip` characters
still belong to the occurrence found last. -/
def replaceFrom (pattern value : List Char) : Nat → List Char → List Char
  | _, [] => []
  | skip + 1, _ :: rest => replaceFrom pattern value skip rest
  | 0, c :: rest =>
    if pattern.isPrefixOf (c :: rest) then
      value ++ replaceFrom pattern value (pattern.length - 1) rest
    else c :: replaceFrom pattern value 0 rest

/-- The placeholder of a key. -/
def placeholder (key : List Char) : List Char :=
  '\x7b' :: key ++ ['\x7d']

/-- Fills in one parameter. -/
def fill (template : List Char) (param : String × String) : List Char :=
  replaceFrom (placeholder param.1.toList) param.2.toList 0 template

/-- Fills in the parameters one after the other. -/
def render (params : List (String × String)) (template : String) : String :=
  String.ofList (params.foldl fill template.toList)

/-- The keys of the placeholders, in order and with repetitions; `key` holds the characters
since the last opening brace, last first. A placeholder reaches from an opening brace to the
next closing one, whatever is between, and one without a key does not count. -/
def keysFrom : Option (List Char) → List Char → List (List Char)
  | _, [] => []
  | none, c :: rest => keysFrom (if c = '\x7b' then some [] else none) rest
  | some key, c :: rest =>
    if c = '\x7d' then
      if key.isEmpty then keysFrom none rest else key.reverse :: keysFrom none rest
    else keysFrom (some (c :: key)) rest

/-- The keys of the placeholders of a template. -/
def keys (template : String) : List String :=
  (keysFrom none template.toList).map String.ofList

end Template

/-- A diagnostic before its templates are filled in. -/
structure Draft where
  code : String
  messageTemplate : String
  helpTemplate : String
  params : List (String × String)
  location : Option Location
  resource : Option String
  severity : Severity
deriving DecidableEq, Repr

namespace Draft

/-- A warning without parameters, location or resource. -/
def new (code messageTemplate helpTemplate : String) : Draft :=
  ⟨code, messageTemplate, helpTemplate, [], none, none, .warning⟩

/-- Adds a parameter. -/
def param (d : Draft) (key value : String) : Draft :=
  { d with params := d.params ++ [(key, value)] }

/-- The placeholders of the message that have no parameter. -/
def missingParams (d : Draft) : List String :=
  (Template.keys d.messageTemplate).filter fun key => !d.params.any (·.1 == key)

/-- What is shown in place of a diagnostic whose message cannot be filled in. -/
def incomplete (d : Draft) : Diagnostic where
  severity := .error
  code := "R9001"
  message := "Internal diagnostic error: missing template parameter(s) for '" ++ d.code ++ "': "
    ++ Report.quoteList d.missingParams
  help := "Please report this issue"
  location := d.location
  resource := none

/-- The diagnostic. -/
def build (d : Draft) : Diagnostic :=
  if d.missingParams.isEmpty then
    { severity := d.severity
      code := d.code
      message := Template.render d.params d.messageTemplate
      help := Template.render d.params d.helpTemplate
      location := d.location
      resource := d.resource }
  else d.incomplete

end Draft

end PoolLint

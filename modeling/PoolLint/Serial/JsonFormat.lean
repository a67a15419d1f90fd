import PoolLint.Json.Reader
import PoolLint.Serial.ClassFile

/-!
# JSON as a data format

A record is an object, or an array of its fields; a variant is its name, or an object with
its name as the only key. Class files are also written as JSON, with every field present.
-/

namespace PoolLint.Serial

open PoolLint.Bytecode

namespace JsonFormat

/-- The fields of an object all of whose keys denote text. -/
def namedFields : List (Option String × Json) → Option (List (String × Json))
  | [] => some []
  | (key, v) :: rest => do return (← key, v) :: (← namedFields rest)

/-- The fields of a record. An array may be shorter than the record, but not longer. -/
def record (names : List String) : Json → Option (Record Json)
  | .object fields => do
    return ⟨← orderFields names (← namedFields fields), false⟩
  | .array items => if items.length ≤ names.length then some ⟨items.map some, true⟩ else none
  | _ => none

/-- The name of a variant with its content, if it has any. -/
def variant? : Json → Option (String × Option Json)
  | .string (some name) => some (name, none)
  | .object [(some name, v)] => some (name, some v)
  | _ => none

/-- The content of a variant. -/
def content (v : Json) : Option Json := do
  (← variant? v).2

end JsonFormat

/-- The JSON format. -/
def jsonFormat : Format Json where
  text
    | .string s => s
    | _ => none
  bool
    | .bool b => some b
    | _ => none
  nat bits
    | .integer n => unsigned? bits n
    | _ => none
  int bits
    | .integer n => signed? bits n
    | _ => none
  list
    | .array items => some items
    | _ => none
  optional
    | .null => some none
    | v => some (some v)
  record _ := JsonFormat.record
  tag v := (JsonFormat.variant? v).map (·.1)
  isBare v :=
    match JsonFormat.variant? v with
    | some (_, none) | some (_, some .null) => true
    | _ => false
  content := JsonFormat.content
  contentRecord _ names v := (JsonFormat.content v).bind (JsonFormat.record names)
  variantRecord names v := (JsonFormat.content v).bind (JsonFormat.record names)

/-! ## Writing class files -/

/-- A variant with content. -/
def variantJson (name : String) (content : Json) : Json :=
  .record [(name, content)]

/-- Writes a call. -/
def callJson (c : CallSite) : Json :=
  .record [("kind", .text (dispatchName c.kind)), ("owner", .text c.owner),
    ("name", .text c.name), ("desc", .text c.desc)]

/-- Writes a field reference. -/
def fieldRefJson (f : FieldRef) : Json :=
  .record [("owner", .text f.owner), ("name", .text f.name), ("desc", .text f.desc)]

/-- Writes a constant. -/
def literalJson : Literal → Json
  | .null => .text "null"
  | .int n => variantJson "int" (.integer n)
  | .string s => variantJson "string" (.text s)
  | .classRef s => variantJson "class" (.text s)

/-- Writes a field access. -/
def fieldAccessJson (field : FieldRef) (isStatic : Bool) : Json :=
  .record [("field", fieldRefJson field), ("is_static", .bool isStatic)]

/-- Writes an instruction. -/
def instructionJson : Instruction → Json
  | .nop => .text "nop"
  | .const value => variantJson "const" (literalJson value)
  | .load slot => variantJson "load" (.nat slot)
  | .store slot => variantJson "store" (.nat slot)
  | .dup => .text "dup"
  | .pop => .text "pop"
  | .swap => .text "swap"
  | .new type => variantJson "new" (.text type)
  | .checkCast type => variantJson "check_cast" (.text type)
  | .getField field isStatic => variantJson "get_field" (fieldAccessJson field isStatic)
  | .putField field isStatic => variantJson "put_field" (fieldAccessJson field isStatic)
  | .arrayLoad => .text "array_load"
  | .arrayStore => .text "array_store"
  | .unary op => variantJson "unary" (.text (unaryName op))
  | .binary op => variantJson "binary" (.text (binaryName op))
  | .invoke call => variantJson "invoke" (callJson call)
  | .goto target => variantJson "goto" (.nat target)
  | .ifZero target => variantJson "if" (.record [("target", .nat target)])
  | .ifCmp target => variantJson "if_cmp" (.record [("target", .nat target)])
  | .switch targets default =>
    variantJson "switch" (.record [("targets", .list .nat targets), ("default", .nat default)])
  | .ret => .text "return"
  | .retValue => .text "return_value"
  | .throw => .text "throw"

/-- Writes a handler. -/
def handlerJson (h : Handler) : Json :=
  .record [("start", .nat h.start), ("end", .nat h.stop), ("handler", .nat h.target),
    ("catch_type", .nullable .text h.catchType)]

/-- Writes a method. -/
def methodJson (m : Method) : Json :=
  .record [("name", .text m.name), ("desc", .text m.desc), ("is_static", .bool m.isStatic),
    ("max_locals", .nat m.maxLocals), ("max_stack", .nullable .nat m.maxStack),
    ("instructions", .list instructionJson m.code), ("handlers", .list handlerJson m.handlers),
    ("lines", .list (.nullable .nat) m.lines)]

/-- Writes a class file. -/
def classFileJson (unit : ClassFile) : Json :=
  .record [("name", .text unit.name), ("source_file", .nullable .text unit.sourceFile),
    ("methods", .list methodJson unit.methods)]

/-- Reads a class file from JSON text. -/
def readJsonClassFile (text : String) : Option ClassFile :=
  (Json.parse? text).bind (decodeClassFile jsonFormat)

end PoolLint.Serial

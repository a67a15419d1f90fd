import PoolLint.Bytecode.Method
import PoolLint.Serial.Format

/-!
# Decoding class files

The decoders of instructions, methods and class files, against any data format. Names of
variants are in lower case with underscores.
-/

namespace PoolLint.Serial

open PoolLint.Bytecode

/-! ## Names -/

/-- The dispatch of a name. -/
def dispatchOfName : String → Option Dispatch
  | "static" => some .static
  | "virtual" => some .virtual
  | "special" => some .special
  | "interface" => some .interface
  | _ => none

/-- The name of a dispatch. -/
def dispatchName : Dispatch → String
  | .static => "static"
  | .virtual => "virtual"
  | .special => "special"
  | .interface => "interface"

/-- The unary operation of a name. -/
def unaryOfName : String → Option UnaryOp
  | "neg" => some .neg
  | "convert" => some .convert
  | "array_length" => some .arrayLength
  | "instance_of" => some .instanceOf
  | _ => none

/-- The name of a unary operation. -/
def unaryName : UnaryOp → String
  | .neg => "neg"
  | .convert => "convert"
  | .arrayLength => "array_length"
  | .instanceOf => "instance_of"

/-- The binary operation of a name. -/
def binaryOfName : String → Option BinaryOp
  | "add" => some .add
  | "sub" => some .sub
  | "mul" => some .mul
  | "div" => some .div
  | "rem" => some .rem
  | "and" => some .and
  | "or" => some .or
  | "xor" => some .xor
  | "shl" => some .shl
  | "shr" => some .shr
  | "cmp" => some .cmp
  | _ => none

/-- The name of a binary operation. -/
def binaryName : BinaryOp → String
  | .add => "add"
  | .sub => "sub"
  | .mul => "mul"
  | .div => "div"
  | .rem => "rem"
  | .and => "and"
  | .or => "or"
  | .xor => "xor"
  | .shl => "shl"
  | .shr => "shr"
  | .cmp => "cmp"

/-! ## Field names -/

/-- The fields of a call. -/
def callFields : List String :=
  ["kind", "owner", "name", "desc"]

/-- The fields of a field reference. -/
def fieldRefFields : List String :=
  ["owner", "name", "desc"]

/-- The fields of a field access. -/
def fieldAccessFields : List String :=
  ["field", "is_static"]

/-- The fields of a handler. -/
def handlerFields : List String :=
  ["start", "end", "handler", "catch_type"]

/-- The fields of a method. -/
def methodFields : List String :=
  ["name", "desc", "is_static", "max_locals", "max_stack", "instructions", "handlers", "lines"]

/-- The fields of a class file. -/
def classFileFields : List String :=
  ["name", "source_file", "methods"]

/-! ## Decoders -/

variable {F : Type} (fmt : Format F)

/-- Takes a call from its fields. -/
def callOfRecord (r : Record F) : Option CallSite := do
  return {
    kind := ← r.required 0 (fmt.bareVariant dispatchOfName)
    owner := ← r.required 1 fmt.text
    name := ← r.required 2 fmt.text
    desc := ← r.required 3 fmt.text }

/-- Decodes a call. -/
def decodeCall (v : F) : Option CallSite := do
  callOfRecord fmt (← fmt.record "CallSite" callFields v)

/-- Decodes a field reference. -/
def decodeFieldRef (v : F) : Option FieldRef := do
  let r ← fmt.record "FieldRef" fieldRefFields v
  return {
    owner := ← r.required 0 fmt.text
    name := ← r.required 1 fmt.text
    desc := ← r.required 2 fmt.text }

/-- Decodes a constant. -/
def decodeLiteral (v : F) : Option Literal := do
  match ← fmt.tag v with
  | "null" => if fmt.isBare v then some .null else none
  | "int" => return .int (← fmt.int 64 (← fmt.content v))
  | "string" => return .string (← fmt.text (← fmt.content v))
  | "class" => return .classRef (← fmt.text (← fmt.content v))
  | _ => none

/-- Decodes a field access: the field, and whether it is static. -/
def decodeFieldAccess (v : F) : Option (FieldRef × Bool) := do
  let r ← fmt.variantRecord fieldAccessFields v
  return (← r.required 0 (decodeFieldRef fmt), ← r.withDefault 1 false fmt.bool)

/-- Decodes the target of a conditional jump. -/
def decodeTarget (v : F) : Option Nat := do
  (← fmt.variantRecord ["target"] v).required 0 fmt.index

/-- The instruction without operands of a name. -/
def bareInstruction : String → Option Instruction
  | "nop" => some .nop
  | "dup" => some .dup
  | "pop" => some .pop
  | "swap" => some .swap
  | "array_load" => some .arrayLoad
  | "array_store" => some .arrayStore
  | "return" => some .ret
  | "return_value" => some .retValue
  | "throw" => some .throw
  | _ => none

/-- Decodes an instruction. -/
def decodeInstruction (v : F) : Option Instruction := do
  match ← fmt.tag v with
  | "const" => return .const (← decodeLiteral fmt (← fmt.content v))
  | "load" => return .load (← fmt.index (← fmt.content v))
  | "store" => return .store (← fmt.index (← fmt.content v))
  | "new" => return .new (← fmt.text (← fmt.content v))
  | "check_cast" => return .checkCast (← fmt.text (← fmt.content v))
  | "get_field" =>
    let (field, isStatic) ← decodeFieldAccess fmt v
    return .getField field isStatic
  | "put_field" =>
    let (field, isStatic) ← decodeFieldAccess fmt v
    return .putField field isStatic
  | "unary" => return .unary (← fmt.bareVariant unaryOfName (← fmt.content v))
  | "binary" => return .binary (← fmt.bareVariant binaryOfName (← fmt.content v))
  | "invoke" => return .invoke (← callOfRecord fmt (← fmt.contentRecord "CallSite" callFields v))
  | "goto" => return .goto (← fmt.index (← fmt.content v))
  | "if" => return .ifZero (← decodeTarget fmt v)
  | "if_cmp" => return .ifCmp (← decodeTarget fmt v)
  | "switch" =>
    let r ← fmt.variantRecord ["targets", "default"] v
    return .switch (← r.required 0 (fmt.listOf fmt.index)) (← r.required 1 fmt.index)
  | _ => fmt.bareVariant bareInstruction v

/-- Decodes a handler. -/
def decodeHandler (v : F) : Option Handler := do
  let r ← fmt.record "ExceptionHandler" handlerFields v
  return {
    start := ← r.required 0 fmt.index
    stop := ← r.required 1 fmt.index
    target := ← r.required 2 fmt.index
    catchType := ← fmt.optionalField r 3 fmt.text }

/-- Decodes a method. -/
def decodeMethod (v : F) : Option Method := do
  let r ← fmt.record "Method" methodFields v
  return {
    name := ← r.required 0 fmt.text
    desc := ← r.required 1 fmt.text
    isStatic := ← r.withDefault 2 false fmt.bool
    maxLocals := ← r.required 3 fmt.index
    maxStack := ← fmt.optionalField r 4 fmt.index
    code := ← r.required 5 (fmt.listOf (decodeInstruction fmt))
    handlers := ← r.withDefault 6 [] (fmt.listOf (decodeHandler fmt))
    lines := ← r.withDefault 7 [] (fmt.listOf (fmt.nullable (fmt.nat 32))) }

/-- Decodes a class file. -/
def decodeClassFile (v : F) : Option ClassFile := do
  let r ← fmt.record "ClassUnit" classFileFields v
  return {
    name := ← r.required 0 fmt.text
    sourceFile := ← fmt.optionalField r 1 fmt.text
    methods := ← r.withDefault 2 [] (fmt.listOf (decodeMethod fmt)) }

end PoolLint.Serial

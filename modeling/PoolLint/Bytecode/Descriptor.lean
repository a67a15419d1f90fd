import PoolLint.Bytecode.Instruction

/-!
# Method descriptors

A descriptor such as `(I[JLjava/lang/String;)V` lists one type per parameter between
parentheses and the result type after them. A type is any number of `[` followed by a
primitive letter or by a class name between `L` and `;`. The parameters end at the first
closing parenthesis, so no class name can contain one.
-/

namespace PoolLint.Bytecode

namespace Descriptor

/-- The letters of the primitive parameter types. -/
def isPrimitive (c : Char) : Bool :=
  c ∈ ['B', 'C', 'D', 'F', 'I', 'J', 'S', 'Z']

/-- Where a scan of a parameter list stands: between two types, after `[` with the element
type still to come, or inside a class name. -/
inductive Cursor where
  | between
  | element
  | className
deriving DecidableEq, Repr

/-- Counts the types in a parameter list, `seen` of which are already read; `none` if a
type is malformed or unfinished. -/
def countFrom (cursor : Cursor) (seen : Nat) : List Char → Option Nat
  | [] => if cursor = .between then some seen else none
  | c :: rest =>
    match cursor with
    | .className =>
      if c = ';' then countFrom .between (seen + 1) rest else countFrom .className seen rest
    | _ =>
      if c = '[' then countFrom .element seen rest
      else if c = 'L' then countFrom .className seen rest
      else if isPrimitive c then countFrom .between (seen + 1) rest
      else none

/-- The text between the opening parenthesis and the first closing one. -/
def parameterText? : List Char → Option (List Char)
  | '(' :: rest => if ')' ∈ rest then some (rest.takeWhile (· != ')')) else none
  | _ => none

/-- The number of declared parameters, `none` for a malformed descriptor. -/
def paramCount? (desc : String) : Option Nat :=
  (parameterText? desc.toList).bind (countFrom .between 0)

/-- Whether a call pushes a result: every descriptor does that does not end in `)V`. -/
def returnsValue (desc : String) : Bool :=
  !([')', 'V'].isSuffixOf desc.toList)

end Descriptor

namespace CallSite

/-- The number of declared parameters. -/
def paramCount? (call : CallSite) : Option Nat :=
  Descriptor.paramCount? call.desc

/-- The number of stack values the call pops: its parameters and its receiver. -/
def argCount? (call : CallSite) : Option Nat :=
  call.paramCount?.map (· + if call.kind.hasReceiver then 1 else 0)

/-- Whether the call pushes a result. -/
def returnsValue (call : CallSite) : Bool :=
  Descriptor.returnsValue call.desc

/-- The callee as text, `owner.name` followed by the descriptor. -/
def display (call : CallSite) : String :=
  call.owner ++ "." ++ call.name ++ call.desc

end CallSite

end PoolLint.Bytecode

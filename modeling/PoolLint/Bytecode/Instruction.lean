/-!
# Instructions of a compiled method

A stack machine whose values are opaque to the checker: an instruction is described by
what it moves between the operand stack, the local slots and the heap, and by where it
passes control. Every value takes one stack entry, wide primitives included.
-/

namespace PoolLint.Bytecode

/-- How the callee of a call is selected. -/
inductive Dispatch where
  | static
  | virtual
  | special
  | interface
deriving DecidableEq, Repr

namespace Dispatch

/-- Every dispatch but the static one pops a receiver below the declared arguments. -/
def hasReceiver : Dispatch → Bool
  | static => false
  | _ => true

/-- The callee is chosen by the run-time type of the receiver. -/
def isDynamic : Dispatch → Bool
  | virtual | interface => true
  | _ => false

end Dispatch

/-- The callee named by a call instruction; `owner` and `desc` are internal type names
and descriptors such as `android/os/Parcel` and `()V`. -/
structure CallSite where
  kind : Dispatch
  owner : String
  name : String
  desc : String
deriving DecidableEq, Repr

/-- A field named by a load or store. -/
structure FieldRef where
  owner : String
  name : String
  desc : String
deriving DecidableEq, Repr

/-- A constant operand. -/
inductive Literal where
  | null
  | int (value : Int)
  | string (text : String)
  | classRef (name : String)
deriving DecidableEq, Repr

/-- Operations that replace the top of the stack. -/
inductive UnaryOp where
  | neg
  | convert
  | arrayLength
  | instanceOf
deriving DecidableEq, Repr

/-- Operations that replace the two topmost values. -/
inductive BinaryOp where
  | add
  | sub
  | mul
  | div
  | rem
  | and
  | or
  | xor
  | shl
  | shr
  | cmp
deriving DecidableEq, Repr

/-- One instruction; jump targets are instruction indices of the same method. -/
inductive Instruction where
  | nop
  | const (value : Literal)
  | load (slot : Nat)
  | store (slot : Nat)
  | dup
  | pop
  | swap
  | new (type : String)
  | checkCast (type : String)
  | getField (field : FieldRef) (isStatic : Bool)
  | putField (field : FieldRef) (isStatic : Bool)
  | arrayLoad
  | arrayStore
  | unary (op : UnaryOp)
  | binary (op : BinaryOp)
  | invoke (call : CallSite)
  | goto (target : Nat)
  | ifZero (target : Nat)
  | ifCmp (target : Nat)
  | switch (targets : List Nat) (default : Nat)
  | ret
  | retValue
  | throw
deriving DecidableEq, Repr

namespace Instruction

/-- The call of an `invoke`. -/
def call? : Instruction → Option CallSite
  | invoke call => some call
  | _ => none

/-- Control can pass to the instruction that follows. -/
def fallsThrough : Instruction → Bool
  | goto _ | switch _ _ | ret | retValue | throw => false
  | _ => true

end Instruction

end PoolLint.Bytecode

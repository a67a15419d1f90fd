import PoolLint.Bytecode.Method
import PoolLint.Flow.Frame

/-!
# Interpreters

What an instruction moves between stack and slots is the same for every analysis. An
interpreter adds the rest: where new values come from, what a call does, and what is
recorded when a value leaves the method.
-/

namespace PoolLint.Flow

open PoolLint.Bytecode

/-- Why the analysis of a method is given up. -/
inductive FlowError where
  | emptyMethod
  | frame (index : Nat) (cause : FrameError)
  | branchOutOfRange (index target : Nat)
  | frameTooLarge (maxLocals : Nat) (maxStack : Option Nat) (limit : Nat)
  | fallsOffEnd (index : Nat)
  | malformedHandler (start stop target : Nat)
  | malformedDescriptor (index : Nat) (desc : String)
deriving DecidableEq, Repr

/-- A declared stack limit as shown in messages. -/
def showLimit : Option Nat → String
  | none => "None"
  | some limit => s!"Some({limit})"

/-- The wording of a flow error. -/
def FlowError.message : FlowError → String
  | emptyMethod => "method has no instructions"
  | frame index cause => s!"at instruction {index}: {cause.message}"
  | branchOutOfRange index target =>
    s!"branch at {index} targets {target}, outside the method"
  | frameTooLarge maxLocals maxStack limit =>
    "declared frame size out of range (max_locals " ++ toString maxLocals ++ ", max_stack "
      ++ showLimit maxStack ++ ", limit " ++ toString limit ++ ")"
  | fallsOffEnd index => s!"execution falls off the end after instruction {index}"
  | malformedHandler start stop target =>
    s!"malformed exception handler {start}..{stop} -> {target}"
  | malformedDescriptor index desc => s!"malformed descriptor `{desc}` at instruction {index}"

/-- The part of an abstract execution that differs between analyses, over frame values `V`
and a record `S` of what was seen. Arguments of a call come in the order they were pushed,
the receiver first, and the frame that `call` may edit has them popped already. -/
structure Interpreter (V S : Type) where
  /-- The value of a local slot on entry, and of a caught exception. -/
  newValue : S → V
  /-- The value that an instruction produces by itself. -/
  fresh : S → Nat → Instruction → S × V
  /-- A value is stored into a field or an array. -/
  storeHeap : S → Nat → Instruction → V → S
  /-- A call; its result is pushed only if the callee returns one. -/
  call : S → Nat → CallSite → List V → Frame V → S × V × Frame V
  /-- A value is returned by the method. -/
  ret : S → Nat → V → S

/-- Says at which instruction a frame operation failed. -/
def located {α : Type} (index : Nat) : Except FrameError α → Except FlowError α
  | .ok a => .ok a
  | .error cause => .error (.frame index cause)

namespace Interpreter

variable {V S : Type} (I : Interpreter V S)

/-- Pushes the value that the instruction produces. -/
def pushFresh (s : S) (i : Nat) (instr : Instruction) (f : Frame V) :
    Except FrameError (S × Frame V) := do
  let (s, v) := I.fresh s i instr
  return (s, ← f.push v)

/-- Runs a call of `argCount` arguments. -/
def invoke (s : S) (i : Nat) (call : CallSite) (argCount : Nat) (f : Frame V) :
    Except FrameError (S × Frame V) := do
  let (args, f) ← f.popN argCount
  let (s, result, f) := I.call s i call args f
  if call.returnsValue then return (s, ← f.push result) else return (s, f)

/-- The effect of an instruction other than a call. -/
def effect (s : S) (i : Nat) (instr : Instruction) (f : Frame V) :
    Except FrameError (S × Frame V) :=
  match instr with
  | .nop | .goto _ | .ret | .invoke _ => return (s, f)
  | .const _ | .new _ => I.pushFresh s i instr f
  | .load slot => do
    let v ← f.getLocal slot
    return (s, ← f.push v)
  | .store slot => do
    let (v, f) ← f.pop
    return (s, ← f.setLocal slot v)
  | .dup => do
    let v ← f.peek
    return (s, ← f.push v)
  | .pop | .ifZero _ | .switch _ _ | .throw => do
    let (_, f) ← f.pop
    return (s, f)
  | .ifCmp _ => do
    let (_, f) ← f.popN 2
    return (s, f)
  | .swap => do
    let (top, f) ← f.pop
    let (below, f) ← f.pop
    let f ← f.push top
    return (s, ← f.push below)
  | .checkCast _ => do
    let _ ← f.peek
    return (s, f)
  | .getField _ isStatic =>
    if isStatic then I.pushFresh s i instr f
    else do
      let (_, f) ← f.pop
      I.pushFresh s i instr f
  | .putField _ isStatic => do
    let (v, f) ← f.pop
    if isStatic then return (I.storeHeap s i instr v, f)
    else do
      let (_, f) ← f.pop
      return (I.storeHeap s i instr v, f)
  | .arrayLoad | .binary _ => do
    let (_, f) ← f.popN 2
    I.pushFresh s i instr f
  | .arrayStore => do
    let (v, f) ← f.pop
    let (_, f) ← f.popN 2
    return (I.storeHeap s i instr v, f)
  | .unary _ => do
    let (_, f) ← f.pop
    I.pushFresh s i instr f
  | .retValue => do
    let (v, f) ← f.pop
    return (I.ret s i v, f)

/-- Executes instruction `i` on the frame before it. -/
def execute (s : S) (i : Nat) (instr : Instruction) (f : Frame V) :
    Except FlowError (S × Frame V) :=
  match instr with
  | .invoke call =>
    match call.argCount? with
    | none => .error (.malformedDescriptor i call.desc)
    | some argCount => located i (I.invoke s i call argCount f)
  | _ => located i (I.effect s i instr f)

/-- The frame with which an exception handler is entered from an instruction: the locals
before it, and only the exception on the stack. -/
def handlerEntry (s : S) (before : Frame V) : Except FrameError (Frame V) :=
  before.clearStack.push (I.newValue s)

end Interpreter

end PoolLint.Flow

import PoolLint.Flow.Analysis

/-!
# Tracking allocations

The smallest interesting interpreter: a value is marked if it may come from an allocation of
this method, directly or through the arguments of calls. It records what it was asked, in
order, and leaves the frame alone.
-/

namespace PoolLint.Flow

open PoolLint.Bytecode

/-- One question put to the interpreter. -/
inductive TaintEvent where
  | fresh (index : Nat)
  | heap (index : Nat) (value : Bool)
  | call (index : Nat) (args : List Bool) (stackHeight : Nat)
  | ret (index : Nat) (value : Bool)
deriving DecidableEq, Repr

/-- Whether an instruction allocates an object. -/
def isAllocation : Instruction → Bool
  | .new _ => true
  | _ => false

/-- Marks allocated objects and the results of calls that take a marked argument. -/
def taint : Interpreter Bool (List TaintEvent) where
  newValue _ := false
  fresh events i instr := (events ++ [.fresh i], isAllocation instr)
  storeHeap events i _ value := events ++ [.heap i value]
  call events i _ args f := (events ++ [.call i args f.stackHeight], args.any id, f)
  ret events i value := events ++ [.ret i value]

/-- The allocation analysis of a method. -/
def analyzeTaint (m : Method) : Except FlowError (Analysis Bool (List TaintEvent)) :=
  analyze taint [] m

end PoolLint.Flow

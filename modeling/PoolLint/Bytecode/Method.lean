import PoolLint.Bytecode.Descriptor

/-!
# Methods, their control flow, and class files

A method is a list of instructions with a number of local slots and a table of exception
handlers. Its control flow graph has two kinds of edges: the normal successors of an
instruction, and one edge to every handler whose range covers the instruction.
-/

namespace PoolLint.Bytecode

/-- Instructions in `start ≤ i < stop` may pass control to `target`; without a
`catchType` every exception is caught. -/
structure Handler where
  start : Nat
  stop : Nat
  target : Nat
  catchType : Option String
deriving DecidableEq, Repr

/-- The handler's range contains an instruction. -/
def Handler.covers (h : Handler) (i : Nat) : Bool :=
  decide (h.start ≤ i) && decide (i < h.stop)

/-- A method body. The stack is unbounded without a `maxStack`, and `lines` may be shorter
than `code`. -/
structure Method where
  name : String
  desc : String
  isStatic : Bool
  maxLocals : Nat
  maxStack : Option Nat
  code : List Instruction
  handlers : List Handler
  lines : List (Option Nat)
deriving DecidableEq, Repr

namespace Method

/-- The source line of an instruction, where one is recorded. -/
def line? (m : Method) (i : Nat) : Option Nat :=
  (m.lines[i]?).join

/-- The calls of a method with their instruction indices, in order. -/
def calls (m : Method) : List (Nat × CallSite) :=
  m.code.zipIdx.filterMap fun (instr, i) => instr.call?.map (i, ·)

/-- The method's name followed by its descriptor. -/
def signature (m : Method) : String :=
  m.name ++ m.desc

/-- The normal successors of an instruction. Targets are not range-checked: a
fall-through successor may lie one past the end. -/
def successors (m : Method) (i : Nat) : List Nat :=
  match m.code[i]? with
  | none => []
  | some (.goto target) => [target]
  | some (.ifZero target) | some (.ifCmp target) => [i + 1, target]
  | some (.switch targets default) => (default :: targets).eraseDups
  | some .ret | some .retValue | some .throw => []
  | some _ => [i + 1]

/-- The handlers that cover an instruction, in table order. -/
def handlersCovering (m : Method) (i : Nat) : List Handler :=
  m.handlers.filter (·.covers i)

/-- An edge of the control flow graph, normal or exceptional. -/
def Edge (m : Method) (i j : Nat) : Prop :=
  j ∈ m.successors i ∨ ∃ h ∈ m.handlersCovering i, h.target = j

end Method

/-- A compiled class with its methods. -/
structure ClassFile where
  name : String
  sourceFile : Option String
  methods : List Method
deriving DecidableEq, Repr

end PoolLint.Bytecode

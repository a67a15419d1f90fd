import PoolLint.Bytecode.Method
import PoolLint.Numeric.Width

/-!
# Assembling a method from directives

Jumps and handler ranges name labels, which may be marked before or after their use, more
than once, or never. The assembler reads its directives in one go. It emits a jump at once,
with placeholders for targets, and notes where it stands; when the method is built, the
noted jumps are patched with the instruction indices of their labels. A label stands for
the place of its last mark, and one without a mark for `unboundTarget`, which no method can
contain.
-/

namespace PoolLint.Bytecode

/-- A jump target or the end of a handler range, by number. -/
abbrev Label := Nat

/-- The target of a label that was never marked: the largest index, outside every method. -/
def unboundTarget : Nat := capacity 64 - 1

/-- One line of assembly. -/
inductive Directive where
  /-- Declares the method static. -/
  | static
  /-- Sets the number of local slots. -/
  | locals (count : Nat)
  /-- Sets the operand stack limit. -/
  | maxStack (limit : Nat)
  /-- Sets the source line of the instructions that follow. -/
  | line (number : Nat)
  /-- Creates a label; labels are numbered as they are created. -/
  | newLabel
  /-- Binds a label to the next instruction. -/
  | mark (label : Label)
  /-- Emits an instruction as it is, jump targets included. -/
  | instr (instr : Instruction)
  | goto (label : Label)
  | ifZero (label : Label)
  | ifCmp (label : Label)
  | switch (targets : List Label) (default : Label)
  /-- Declares a handler for the instructions between two labels. -/
  | tryCatch (start stop target : Label) (catchType : Option String)
deriving DecidableEq, Repr

namespace Assembler

/-- A jump whose targets are labels. -/
inductive Jump where
  | goto (label : Label)
  | ifZero (label : Label)
  | ifCmp (label : Label)
  | switch (targets : List Label) (default : Label)
deriving DecidableEq, Repr

/-- The instruction of a jump, by what its labels stand for. -/
def Jump.instruction (target : Label → Nat) : Jump → Instruction
  | goto label => .goto (target label)
  | ifZero label => .ifZero (target label)
  | ifCmp label => .ifCmp (target label)
  | switch targets default => .switch (targets.map target) (target default)

/-- An emitted jump that still has placeholders for targets, and its place. -/
structure Patch where
  place : Nat
  jump : Jump
deriving DecidableEq, Repr

/-- Fills in the targets of a jump. -/
def Patch.applyTo (target : Label → Nat) (code : List Instruction) (p : Patch) :
    List Instruction :=
  code.set p.place (p.jump.instruction target)

/-- A handler whose bounds are still labels. -/
structure PendingHandler where
  start : Label
  stop : Label
  target : Label
  catchType : Option String
deriving DecidableEq, Repr

/-- What the directives read so far have built. -/
structure State where
  name : String
  desc : String
  isStatic : Bool
  maxLocals : Nat
  maxStack : Option Nat
  code : List Instruction
  lines : List (Option Nat)
  currentLine : Option Nat
  nextLabel : Label
  marks : List (Label × Nat)
  patches : List Patch
  pending : List PendingHandler
deriving DecidableEq, Repr

/-- Before the first directive: an instance method with one local slot for its receiver. -/
def start (name desc : String) : State where
  name := name
  desc := desc
  isStatic := false
  maxLocals := 1
  maxStack := none
  code := []
  lines := []
  currentLine := none
  nextLabel := 0
  marks := []
  patches := []
  pending := []

namespace State

/-- The index of the next instruction. -/
def position (s : State) : Nat :=
  s.code.length

/-- Appends an instruction under the current source line. -/
def emit (s : State) (instr : Instruction) : State :=
  { s with code := s.code ++ [instr], lines := s.lines ++ [s.currentLine] }

/-- Appends a jump with placeholders, to be patched when the method is built. -/
def emitJump (s : State) (jump : Jump) : State :=
  let noted : State := { s with patches := s.patches ++ [⟨s.position, jump⟩] }
  noted.emit (jump.instruction fun _ => unboundTarget)

/-- Reads one directive. -/
def apply (s : State) : Directive → State
  | .static => { s with isStatic := true }
  | .locals count => { s with maxLocals := count }
  | .maxStack limit => { s with maxStack := some limit }
  | .line number => { s with currentLine := some number }
  | .newLabel => { s with nextLabel := s.nextLabel + 1 }
  | .mark label => { s with marks := (label, s.position) :: s.marks }
  | .instr instr => s.emit instr
  | .goto label => s.emitJump (.goto label)
  | .ifZero label => s.emitJump (.ifZero label)
  | .ifCmp label => s.emitJump (.ifCmp label)
  | .switch targets default => s.emitJump (.switch targets default)
  | .tryCatch start stop target catchType =>
    { s with pending := s.pending ++ [⟨start, stop, target, catchType⟩] }

/-- The index a label stands for; marks are kept latest first, so the first hit is the
last mark. -/
def resolve (s : State) (label : Label) : Nat :=
  (s.marks.lookup label).getD unboundTarget

/-- A handler with its bounds resolved. -/
def resolveHandler (s : State) (h : PendingHandler) : Handler where
  start := s.resolve h.start
  stop := s.resolve h.stop
  target := s.resolve h.target
  catchType := h.catchType

/-- The finished method. -/
def build (s : State) : Method where
  name := s.name
  desc := s.desc
  isStatic := s.isStatic
  maxLocals := s.maxLocals
  maxStack := s.maxStack
  code := s.patches.foldl (Patch.applyTo s.resolve) s.code
  handlers := s.pending.map s.resolveHandler
  lines := s.lines

end State

end Assembler

/-- The method a list of directives describes. -/
def assemble (name desc : String) (directives : List Directive) : Method :=
  (directives.foldl Assembler.State.apply (Assembler.start name desc)).build

end PoolLint.Bytecode

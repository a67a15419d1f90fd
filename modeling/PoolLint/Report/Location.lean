import PoolLint.Bytecode.Method

/-!
# Locations of findings

Compiled code has no columns: a finding is placed by class, method and instruction, with the
source file and line where the class file records them. Locations are ordered by file, class,
method, instruction and line, text by text; what is not recorded comes first.
-/

namespace PoolLint

open PoolLint.Bytecode

/-- The place of an instruction; `method` is the method's name followed by its descriptor. -/
structure Location where
  file : Option String
  className : String
  method : String
  instruction : Nat
  line : Option Nat
deriving DecidableEq, Repr

/-- Compares optional parts, an absent one before any present one. -/
def compareOption {α : Type} (cmp : α → α → Ordering) : Option α → Option α → Ordering
  | none, none => .eq
  | none, some _ => .lt
  | some _, none => .gt
  | some a, some b => cmp a b

/-- Compares two texts by their characters. -/
def compareText (a b : String) : Ordering :=
  compareOfLessAndEq a b

/-- Compares two numbers. -/
def compareNat (a b : Nat) : Ordering :=
  compareOfLessAndEq a b

namespace Location

/-- The place of an instruction of a method. -/
def ofInstruction (unit : ClassFile) (m : Method) (i : Nat) : Location :=
  ⟨unit.sourceFile, unit.name, m.signature, i, m.line? i⟩

/-- The file and line as far as they are recorded, with the class in place of the file. -/
def origin (l : Location) : String :=
  let place := l.file.getD l.className
  match l.line with
  | some line => place ++ ":" ++ toString line
  | none => place

/-- The location on one line. -/
def display (l : Location) : String :=
  l.origin ++ " (" ++ l.className ++ "." ++ l.method ++ " @" ++ toString l.instruction ++ ")"

/-- Compares locations part by part. -/
def compare (a b : Location) : Ordering :=
  (compareOption compareText a.file b.file).then <|
  (compareText a.className b.className).then <|
  (compareText a.method b.method).then <|
  (compareNat a.instruction b.instruction).then <|
  compareOption compareNat a.line b.line

/-- The positions of a list in ascending order of their locations, equal ones in list order. -/
def sortedPositions (locations : List Location) : List Nat :=
  (locations.zipIdx.mergeSort fun a b => (compare a.1 b.1).isLE).map (·.2)

end Location

end PoolLint

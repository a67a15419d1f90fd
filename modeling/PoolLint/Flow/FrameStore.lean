import PoolLint.Flow.Frame

/-!
# Frames that are changed in place

A program may hold frames in variables and change them in place. Its operations are written step
by step: what is read, what is checked and what is written, in this order. An operation that fails
does not take back what it has written before, so that a frame is left as it was is a fact about
every single operation, and not about the way in which operations are written down.
-/

namespace PoolLint.Flow

/-- A computation that reads and writes one frame. A failure leaves behind what was written. -/
abbrev InPlace (V : Type) : Type → Type :=
  ExceptT FrameError (StateM (Frame V))

namespace InPlace

variable {V α : Type}

/-- What comes of the computation on a frame, and the frame that it leaves behind. -/
def on (c : InPlace V α) (f : Frame V) : Except FrameError α × Frame V :=
  Id.run (StateT.run (ExceptT.run c) f)

/-- Pushes a value, unless the stack is at its limit. -/
def push (v : V) : InPlace V Unit := do
  let f ← get
  match f.exhausted? with
  | some max => throw (.stackOverflow max)
  | none => set { f with stack := v :: f.stack }

/-- Takes the top value off the stack. -/
def pop : InPlace V V := do
  let f ← get
  match f.stack with
  | v :: rest =>
    set { f with stack := rest }
    return v
  | [] => throw .stackUnderflow

/-- Takes `n` values off the stack at once and lists them in the order they were pushed. -/
def popN (n : Nat) : InPlace V (List V) := do
  let f ← get
  if f.stack.length < n then throw .stackUnderflow
  set { f with stack := f.stack.drop n }
  return (f.stack.take n).reverse

/-- Reads the top value. -/
def peek : InPlace V V := do
  let f ← get
  match f.stack with
  | v :: _ => return v
  | [] => throw .stackUnderflow

/-- Reads a local slot. -/
def getLocal (slot : Nat) : InPlace V V := do
  let f ← get
  match f.locals[slot]? with
  | some v => return v
  | none => throw (.localOutOfRange slot f.locals.length)

/-- Writes a local slot. -/
def setLocal (slot : Nat) (v : V) : InPlace V Unit := do
  let f ← get
  if f.locals.length ≤ slot then throw (.localOutOfRange slot f.locals.length)
  set { f with locals := f.locals.set slot v }

/-- Empties the stack. -/
def clearStack : InPlace V Unit :=
  modify fun f => { f with stack := [] }

/-- Rewrites every value. What is written may depend on the place, which is counted from the
first slot and from the top of the stack. -/
def rewrite (onLocal onStack : Nat → V → V) : InPlace V Unit :=
  modify fun f =>
    { f with locals := f.locals.mapIdx onLocal, stack := f.stack.mapIdx onStack }

/-! ## Merging place by place -/

section Merging

variable [JoinSemilattice V] [DecidableEq V]

/-- Merges the values of the second list into those of the first, place by place. A place is only
written if that changes its value; whether any place was written is added to what `changed` says
already. -/
def mergeEach (changed : Bool) : List V → List V → List V × Bool
  | a :: as, b :: bs =>
    if merge a b = a then
      let (rest, changed) := mergeEach changed as bs
      (a :: rest, changed)
    else
      let (rest, changed) := mergeEach true as bs
      (merge a b :: rest, changed)
  | as, _ => (as, changed)

/-- Merges the slots and then the stack of another frame into this one; answers whether that
changed anything. -/
def mergeFrom (g : Frame V) : InPlace V Bool := do
  let f ← get
  if f.stack.length ≠ g.stack.length then
    throw (.heightMismatch f.stack.length g.stack.length)
  let (locals, changed) := mergeEach false f.locals g.locals
  set { f with locals := locals }
  let (stack, changed) := mergeEach changed f.stack g.stack
  set { f with locals := locals, stack := stack }
  return changed

end Merging

end InPlace

/-! ## Frames in variables -/

/-- What can be done with a frame. -/
inductive FrameStep (V : Type) where
  | push (v : V)
  | pop
  | popN (n : Nat)
  | peek
  | getLocal (slot : Nat)
  | setLocal (slot : Nat) (v : V)
  | clearStack
  | rewrite (onLocal onStack : Nat → V → V)
  | mergeFrom (g : Frame V)

/-- What is done in a program with frames in variables. -/
inductive FrameCommand (V : Type) where
  /-- Puts a new frame into a variable. -/
  | new (x : String) (maxLocals : Nat) (maxStack : Option Nat) (init : V)
  /-- Puts a copy of another variable's frame into a variable. -/
  | copy (x source : String)
  /-- Merges another variable's frame into the one of the variable. -/
  | merge (x other : String)
  | step (x : String) (op : FrameStep V)

/-- What an operation answers. -/
inductive FrameAnswer (V : Type) where
  | done
  | value (v : V)
  | values (vs : List V)
  | changed (flag : Bool)

namespace FrameStep

variable {V : Type} [JoinSemilattice V] [DecidableEq V]

/-- Does the step with the frame at hand. -/
def run : FrameStep V → InPlace V (FrameAnswer V)
  | push v => (fun _ => .done) <$> InPlace.push v
  | pop => .value <$> InPlace.pop
  | popN n => .values <$> InPlace.popN n
  | peek => .value <$> InPlace.peek
  | getLocal slot => .value <$> InPlace.getLocal slot
  | setLocal slot v => (fun _ => .done) <$> InPlace.setLocal slot v
  | clearStack => (fun _ => .done) <$> InPlace.clearStack
  | rewrite onLocal onStack => (fun _ => .done) <$> InPlace.rewrite onLocal onStack
  | mergeFrom g => .changed <$> InPlace.mergeFrom g

end FrameStep

/-- The frames of the variables that have one. -/
structure FrameStore (V : Type) where
  frame? : String → Option (Frame V)

namespace FrameStore

variable {V : Type}

/-- No variable has a frame. -/
def empty : FrameStore V :=
  ⟨fun _ => none⟩

/-- Gives a variable another frame. -/
def put (s : FrameStore V) (x : String) (f : Frame V) : FrameStore V :=
  ⟨fun y => if y = x then some f else s.frame? y⟩

variable [JoinSemilattice V] [DecidableEq V]

/-- Does a step with the frame of a variable. There is no answer if it has none. -/
def change (s : FrameStore V) (x : String) (op : FrameStep V) :
    Option (Except FrameError (FrameAnswer V)) × FrameStore V :=
  match s.frame? x with
  | some f =>
    let (answer, f) := op.run.on f
    (some answer, s.put x f)
  | none => (none, s)

/-- Obeys a command: the answer, and the frames afterwards. There is no answer if a variable
that is read has no frame, and then nothing happens. -/
def perform (s : FrameStore V) :
    FrameCommand V → Option (Except FrameError (FrameAnswer V)) × FrameStore V
  | .new x maxLocals maxStack init => (some (.ok .done), s.put x (.new maxLocals maxStack init))
  | .copy x source =>
    match s.frame? source with
    | some f => (some (.ok .done), s.put x f)
    | none => (none, s)
  | .merge x other =>
    match s.frame? other with
    | some g => s.change x (.mergeFrom g)
    | none => (none, s)
  | .step x op => s.change x op

/-- The frames after a program, which goes on after failures. -/
def run (s : FrameStore V) (program : List (FrameCommand V)) : FrameStore V :=
  program.foldl (fun s c => (s.perform c).2) s

end FrameStore

end PoolLint.Flow

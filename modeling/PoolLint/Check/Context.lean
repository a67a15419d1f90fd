import PoolLint.Ownership.Verdict
import PoolLint.Report.Code
import PoolLint.Resource.Table

/-!
# What is known about a class while it is checked

For every kind of resource three flags are kept, in the order of the table: an instance is
obtained, one is released, and the precise check has settled what happens to one. Beside them
stand the places that need no second look and the findings reported so far.
-/

namespace PoolLint

open PoolLint.Bytecode PoolLint.Flow

/-- The flags of one kind. -/
structure KindFlags where
  obtained : Bool
  released : Bool
  handled : Bool
deriving DecidableEq, Repr

namespace KindFlags

/-- Nothing seen yet. -/
def clear : KindFlags :=
  ⟨false, false, false⟩

/-- Instances are obtained, none is released, and nothing is settled about them. -/
def looksLeaky (f : KindFlags) : Bool :=
  f.obtained && !f.released && !f.handled

end KindFlags

/-- A place in a class: method and instruction. -/
abbrev Site := Nat × Nat

/-- What is known about one class. Sites and findings are listed in the order in which they
were added, without repetitions. -/
structure UnitContext where
  /-- One entry per name of a kind, in table order. The entry of a kind is found by its
  position in the table, which is the position of its name as long as names do not repeat. -/
  flags : List (String × KindFlags)
  /-- Where the precise check has come to a conclusion or was given up. -/
  settled : List Site
  reported : List (Site × FindingKind)
  rescanRequested : Bool
  /-- How many precise checks were given up. -/
  aborted : Nat
deriving DecidableEq, Repr

/-- Adds an element to a list without repetitions. -/
def insertNew {α : Type} [DecidableEq α] (a : α) (as : List α) : List α :=
  if a ∈ as then as else as ++ [a]

namespace UnitContext

/-- Nothing is known. -/
def new (t : ResourceTable) : UnitContext where
  flags := t.names.eraseDups.map (·, .clear)
  settled := []
  reported := []
  rescanRequested := false
  aborted := 0

/-- The flags at a position; where there are none, nothing was seen. -/
def flagsOf (ctx : UnitContext) (id : Nat) : KindFlags :=
  match ctx.flags[id]? with
  | some (_, flags) => flags
  | none => .clear

/-- Changes the flags at a position. -/
def modifyFlags (ctx : UnitContext) (id : Nat) (g : KindFlags → KindFlags) : UnitContext :=
  { ctx with flags := ctx.flags.modify id fun (name, flags) => (name, g flags) }

/-- Notes a release of a kind. -/
def noteReleased (ctx : UnitContext) (id : Nat) : UnitContext :=
  ctx.modifyFlags id fun flags => { flags with released := true }

/-- Notes that a kind is obtained. -/
def noteObtained (ctx : UnitContext) (id : Nat) : UnitContext :=
  ctx.modifyFlags id fun flags => { flags with obtained := true }

/-- Notes that the precise check has settled what happens to an instance of a kind. -/
def noteHandled (ctx : UnitContext) (id : Nat) : UnitContext :=
  ctx.modifyFlags id fun flags => { flags with handled := true }

/-- Notes the role of a call. -/
def noteRole (ctx : UnitContext) : Option CallRole → UnitContext
  | some (.release id) => ctx.noteReleased id
  | some (.obtain id) => ctx.noteObtained id
  | none => ctx

/-- Some kind may leak without the precise check having seen it. -/
def needsRescan (ctx : UnitContext) : Bool :=
  ctx.flags.any fun (_, flags) => flags.looksLeaky

end UnitContext

/-! ## The calls of a class -/

/-- A call and its place. -/
structure PlacedCall where
  site : Site
  call : CallSite
deriving DecidableEq, Repr

/-- All calls of a class, method by method. -/
def classCalls (unit : ClassFile) : List PlacedCall :=
  unit.methods.zipIdx.flatMap fun (m, method) =>
    m.calls.map fun (i, call) => ⟨(method, i), call⟩

/-! ## Precise checks -/

/-- A precise check to be made: where an instance of the kind at position `kind` is
obtained. -/
structure FlowJob where
  site : Site
  kind : Nat
deriving DecidableEq, Repr

/-- The precise check that a call asks for: one for each instance of a flow-checked kind. -/
def flowJob? (t : ResourceTable) (c : PlacedCall) : Option FlowJob :=
  match t.classify c.call with
  | some (.obtain id) =>
    if (t.kind? id).any (·.flowChecked) then some ⟨c.site, id⟩ else none
  | _ => none

/-- The outcome of a precise check. -/
structure FlowOutcome where
  job : FlowJob
  result : Except FlowError FlowReport

/-- Makes a precise check. -/
def runJob (t : ResourceTable) (unit : ClassFile) (job : FlowJob) : Option FlowOutcome := do
  let m ← unit.methods[job.site.1]?
  let kind ← t.kind? job.kind
  return ⟨job, checkMethodFlow m job.site.2 kind⟩

/-- All precise checks of a class with their outcomes, in the order of the calls. -/
def flowOutcomes (t : ResourceTable) (unit : ClassFile) : List FlowOutcome :=
  ((classCalls unit).filterMap (flowJob? t)).filterMap (runJob t unit)

/-- The log line of a precise check that was given up. -/
def FlowOutcome.warning? (t : ResourceTable) (unit : ClassFile) (o : FlowOutcome) :
    Option String :=
  match o.result with
  | .ok _ => none
  | .error e => do
    let m ← unit.methods[o.job.site.1]?
    let kind ← t.kind? o.job.kind
    return "skipping " ++ kind.name ++ " obtained in " ++ unit.name ++ "." ++ m.signature ++ " at "
      ++ toString o.job.site.2 ++ ": " ++ e.message

/-- The log lines of all precise checks of a class that were given up. -/
def flowWarnings (t : ResourceTable) (unit : ClassFile) : List String :=
  (flowOutcomes t unit).filterMap (·.warning? t unit)

end PoolLint

import PoolLint.Flow.Analysis
import PoolLint.Ownership.Basic
import PoolLint.Resource.Kind

/-!
# Following one instance

The tracker is the interpreter that follows the instance obtained by one call through the
method. It records whether the instance is given back, where it leaves the method, and which
calls use it after it was given back.

A release turns every place that may hold the instance into a released one, in the whole
frame. Calling a method on the instance does not hand it over; passing it as an argument does,
unless the callee is known to leave it with its owner.
-/

namespace PoolLint

open PoolLint.Bytecode PoolLint.Flow

/-- Inserts an index into an ascending list without repetitions. -/
def insertIndex (i : Nat) : List Nat → List Nat
  | [] => [i]
  | j :: rest =>
    if i < j then i :: j :: rest else if i = j then j :: rest else j :: insertIndex i rest

/-- What the tracker has seen so far; both lists of instructions ascend and are free of
repetitions. -/
structure Evidence where
  /-- A release of the instance was observed on some path. -/
  recycled : Bool
  /-- Where the instance leaves the method. -/
  escapes : List Nat
  /-- The calls that use the instance after its release. -/
  doubleReleases : List Nat
deriving DecidableEq, Repr

namespace Evidence

/-- Nothing was seen. -/
def none : Evidence :=
  ⟨false, [], []⟩

/-- The instance leaves the method. -/
def isEscaped (e : Evidence) : Bool :=
  !e.escapes.isEmpty

/-- Notes that the instance leaves the method at an instruction. -/
def escapeAt (e : Evidence) (i : Nat) : Evidence :=
  { e with escapes := insertIndex i e.escapes }

/-- Notes a use after release. -/
def doubleReleaseAt (e : Evidence) (i : Nat) : Evidence :=
  { e with doubleReleases := insertIndex i e.doubleReleases }

/-- Notes that a value leaves the method, which matters if it may be the instance. -/
def leave (e : Evidence) (i : Nat) (value : Ownership) : Evidence :=
  if value.isInstance then e.escapeAt i else e

end Evidence

namespace Tracker

/-- The call is a release of the kind that is dispatched on its receiver. -/
def isRecycleCall (kind : ResourceKind) (call : CallSite) : Bool :=
  call.kind.isDynamic && kind.isRelease call

/-- A place that holds the instance when it is given back. -/
def markReleased (value : Ownership) : Ownership :=
  if value = .tracked then .released else value

/-- Inspects the arguments of a call from position `pos` on, of which those from `first` on
are no receiver. A preserving callee ends the inspection at the first instance it is handed,
so that later arguments are not looked at. -/
def inspectArgs (kind : ResourceKind) (call : CallSite) (i first : Nat) :
    Nat → List Ownership → Evidence → Evidence
  | _, [], e => e
  | pos, .tracked :: rest, e =>
    if first ≤ pos then
      if kind.preservesIdentity call then e
      else inspectArgs kind call i first (pos + 1) rest (e.escapeAt i)
    else inspectArgs kind call i first (pos + 1) rest e
  | pos, .released :: rest, e =>
    inspectArgs kind call i first (pos + 1) rest (e.doubleReleaseAt i)
  | pos, .unknown :: rest, e => inspectArgs kind call i first (pos + 1) rest e

/-- The effect of a call: it yields the instance, gives it back, or uses its arguments. -/
def call (kind : ResourceKind) (obtainAt : Nat) (e : Evidence) (i : Nat) (call : CallSite)
    (args : List Ownership) (f : Frame Ownership) : Evidence × Ownership × Frame Ownership :=
  if i = obtainAt then (e, .tracked, f)
  else if isRecycleCall kind call && decide (args = [.tracked]) then
    ({ e with recycled := true }, .released, f.map markReleased)
  else
    let first := if call.kind.hasReceiver then 1 else 0
    (inspectArgs kind call i first 0 args e, .unknown, f)

end Tracker

/-- Follows the instance of `kind` that the call at `obtainAt` yields. -/
def tracker (kind : ResourceKind) (obtainAt : Nat) : Interpreter Ownership Evidence where
  newValue _ := .unknown
  fresh e _ _ := (e, .unknown)
  storeHeap e i _ value := e.leave i value
  call := Tracker.call kind obtainAt
  ret e i value := e.leave i value

/-- The analysis that follows one instance through a method. -/
def trackInstance (m : Method) (obtainAt : Nat) (kind : ResourceKind) :
    Except FlowError (Analysis Ownership Evidence) :=
  analyze (tracker kind obtainAt) .none m

end PoolLint

import PoolLint.Ownership.Tracker

/-!
# The verdict on one obtained instance

An instance that leaves the method is somebody else's to give back; one that stays must be
given back on some path, or it is leaked.
-/

namespace PoolLint

open PoolLint.Bytecode PoolLint.Flow

/-- What becomes of an obtained instance. -/
inductive Verdict where
  | recycled
  | leaked
  | escaped
deriving DecidableEq, Repr

/-- The word for a verdict. -/
def Verdict.name : Verdict → String
  | recycled => "Recycled"
  | leaked => "Leaked"
  | escaped => "Escaped"

/-- The verdict on the evidence; leaving the method outweighs a release. -/
def Evidence.verdict (e : Evidence) : Verdict :=
  if e.isEscaped then .escaped else if e.recycled then .recycled else .leaked

/-- The outcome of following one instance: the verdict, the calls that use it after its
release in ascending order, and the analysis behind them. -/
structure FlowReport where
  verdict : Verdict
  doubleReleases : List Nat
  frames : List (Option (Frame Ownership))
  steps : Nat

/-- Follows the instance that the call at `obtainAt` yields. -/
def checkMethodFlow (m : Method) (obtainAt : Nat) (kind : ResourceKind) :
    Except FlowError FlowReport := do
  let analysis ← trackInstance m obtainAt kind
  return {
    verdict := analysis.record.verdict
    doubleReleases := analysis.record.doubleReleases
    frames := analysis.frames
    steps := analysis.steps }

end PoolLint

import PoolLint.Flow.Semilattice

/-!
# Ownership of a tracked instance

What a stack entry or a local slot may hold, seen from one obtained instance. Where paths
meet the further advanced state wins: `unknown`, then `tracked`, then `released`.
-/

namespace PoolLint

/-- The state of one place with respect to the tracked instance. -/
inductive Ownership where
  /-- Not the tracked instance. -/
  | unknown
  /-- The instance, not given back yet. -/
  | tracked
  /-- The instance, given back to its pool. -/
  | released
deriving DecidableEq, Repr, Inhabited

namespace Ownership

/-- The position in the order of states. -/
def level : Ownership → Nat
  | unknown => 0
  | tracked => 1
  | released => 2

/-- The further advanced of two states. -/
def join (a b : Ownership) : Ownership :=
  if a.level ≤ b.level then b else a

/-- The place holds the instance, given back or not. -/
def isInstance : Ownership → Bool
  | unknown => false
  | _ => true

/-- The state as a word. -/
def name : Ownership → String
  | unknown => "unknown"
  | tracked => "tracked"
  | released => "released"

instance : Flow.FiniteHeight Ownership where
  merge := join
  merge_comm a b := by cases a <;> cases b <;> rfl
  merge_assoc a b c := by cases a <;> cases b <;> cases c <;> rfl
  merge_self a := by cases a <;> rfl
  rank := level
  height := 2
  rank_le_height a := by cases a <;> decide
  rank_lt_of_merge_ne a b h := by cases a <;> cases b <;> first | decide | exact absurd rfl h

end Ownership

end PoolLint

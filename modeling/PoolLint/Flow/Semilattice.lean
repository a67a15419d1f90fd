/-!
# Join semilattices of finite height

The values that the flow analysis keeps in a frame are merged where paths meet. Merging is a
join, so the result does not depend on how often or in which order paths arrive; and a value
can grow only so often, which is what ends the analysis.
-/

namespace PoolLint.Flow

/-- Values with a join. -/
class JoinSemilattice (V : Type) where
  /-- The join of two values. -/
  merge : V → V → V
  merge_comm : ∀ a b, merge a b = merge b a
  merge_assoc : ∀ a b c, merge (merge a b) c = merge a (merge b c)
  merge_self : ∀ a, merge a a = a

export JoinSemilattice (merge merge_comm merge_assoc merge_self)

/-- A join semilattice whose values have a rank that a merge either keeps, with the value, or
raises, and that never exceeds `height`. -/
class FiniteHeight (V : Type) extends JoinSemilattice V where
  rank : V → Nat
  height : Nat
  rank_le_height : ∀ a, rank a ≤ height
  rank_lt_of_merge_ne : ∀ a b, merge a b ≠ a → rank a < rank (merge a b)

export FiniteHeight (rank height rank_le_height rank_lt_of_merge_ne)

/-- Truth values merge by disjunction. -/
instance : FiniteHeight Bool where
  merge := or
  merge_comm := by decide
  merge_assoc := by decide
  merge_self := by decide
  rank := Bool.toNat
  height := 1
  rank_le_height := by decide
  rank_lt_of_merge_ne := by decide

/-- The sum of a weight over a list. -/
def total {α : Type} (weight : α → Nat) : List α → Nat
  | [] => 0
  | a :: as => weight a + total weight as

theorem total_set {α : Type} (weight : α → Nat) (as : List α) (i : Nat) (a : α)
    (h : i < as.length) :
    total weight (as.set i a) + weight as[i] = total weight as + weight a := by
  induction as generalizing i with
  | nil => simp at h
  | cons b as ih =>
    cases i with
    | zero =>
      simp only [List.set_cons_zero, total, List.getElem_cons_zero]
      omega
    | succ i =>
      have hset := ih i (by simpa using h)
      simp only [List.set_cons_succ, total, List.getElem_cons_succ]
      omega

variable {V : Type} [FiniteHeight V]

/-- How often a value can still grow. -/
def slack (a : V) : Nat :=
  height V - rank a

theorem slack_merge_lt {a b : V} (h : merge a b ≠ a) : slack (merge a b) < slack a := by
  have hlt := rank_lt_of_merge_ne a b h
  have hle := rank_le_height (merge a b)
  unfold slack
  omega

theorem slack_merge_le (a b : V) : slack (merge a b) ≤ slack a := by
  by_cases h : merge a b = a
  · exact Nat.le_of_eq (congrArg slack h)
  · exact Nat.le_of_lt (slack_merge_lt h)

end PoolLint.Flow

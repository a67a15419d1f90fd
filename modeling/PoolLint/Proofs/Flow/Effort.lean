import Mathlib.Algebra.BigOperators.Group.Finset.Piecewise
import PoolLint.Proofs.Flow.Heights

/-!
# The effort of an analysis

How many visits an analysis makes, on both sides of the count. The bounds are kept as a budget
while the worklist is worked off (`Worklist.Budget`): a place is visited, queued or not reached
yet, and a place is queued again only after its frame grew, which uses up some of the room that
its values have to grow. How high the stack of a place is, and so how much room there is, is only
known when its first frame arrives; that is when its share is added to the allowance.

Nothing is asked of what executions do to values. In particular they need not be monotone.
-/

namespace PoolLint.Flow

open PoolLint.Bytecode

variable {V S : Type}

/-! ## Room for growth -/

theorem total_replicate {α : Type} (weight : α → Nat) (a : α) (n : Nat) :
    total weight (List.replicate n a) = n * weight a := by
  induction n with
  | zero => simp [total]
  | succ n ih =>
    rw [List.replicate_succ, total, ih, Nat.succ_mul]
    omega

section Room

variable [FiniteHeight V]

theorem Frame.slackOf_le (vs : List V) : slackOf vs ≤ height V * vs.length := by
  induction vs with
  | nil => simp [slackOf, total]
  | cons v vs ih =>
    have hv : Flow.slack v ≤ height V := Nat.sub_le _ _
    have hlen : height V * (v :: vs).length = height V * vs.length + height V := by
      rw [List.length_cons, Nat.mul_succ]
    simp only [slackOf, total] at ih ⊢
    omega

/-- The number of slots and stack entries of a frame. -/
def Frame.size (f : Frame V) : Nat :=
  f.locals.length + f.stack.length

/-- How often a frame can grow is bounded by its size. -/
theorem Frame.slack_le (f : Frame V) : f.slack ≤ height V * f.size := by
  have hlocals := slackOf_le f.locals
  have hstack := slackOf_le f.stack
  unfold slack size
  rw [Nat.mul_add]
  omega

theorem Frame.size_merged (f g : Frame V) : (f.merged g).size = f.size := by
  simp [Frame.size, Frame.merged]

theorem Frame.slack_merged_lt [DecidableEq V] {f g : Frame V}
    (hheight : f.stack.length = g.stack.length) (hne : f.merged g ≠ f) :
    (f.merged g).slack < f.slack :=
  slack_lt_of_mergeFrom (mergeFrom_eq_ok.2 ⟨hheight, rfl, by simpa using hne⟩)

end Room

/-! ## The budget -/

namespace Worklist

variable {n : Nat}

section Budget

variable [FiniteHeight V] {w w' : Worklist V S n} {target : Fin n} {f : Frame V}

/-- How often a place with this frame is visited at most: once, and once more each time that its
frame grows. -/
def share : Option (Frame V) → Nat
  | none => 0
  | some f => 1 + height V * f.size

/-- How often the places reached so far are visited at most, taken together. -/
def allowance (w : Worklist V S n) : Nat :=
  total share w.frames.toList

theorem store_allowance (w : Worklist V S n) (target : Fin n) (f : Frame V) :
    (w.store target f).allowance + share (w.frames.get target) =
      w.allowance + (1 + height V * f.size) := by
  have h := total_set share w.frames.toList target (some f) (by simp)
  simpa [allowance, store, share, Vector.toList_set, Vector.get] using h

/-- Every place was visited, is queued, or is not reached yet; and the visits made, those queued
and those that growth can still cause are allowed for. -/
structure Budget (w : Worklist V S n) : Prop where
  tidy : w.Tidy
  least : n ≤ w.steps + w.queue.length + w.missing
  most : w.steps + w.queue.length + w.slack ≤ w.allowance

/-- A new place is one more to visit. -/
theorem Budget.store_new (h : w.Budget) (hnone : w.frames.get target = none) :
    (w.store target f).Budget := by
  have hframe : w.frames[target] = none := hnone
  have hqueue := queue_store_of_not_mem (f := f) (h.tidy.not_mem hnone)
  have hmissing := store_missing w target f
  have hslack := store_slack w target f
  have hallowance := store_allowance w target f
  have hroom := f.slack_le
  have hleast := h.least
  have hmost := h.most
  have hsteps : (w.store target f).steps = w.steps := rfl
  rw [hframe] at hmissing hslack
  rw [hnone] at hallowance
  simp only [absent, Option.isNone_none, if_true, room, share] at hmissing hslack hallowance
  refine ⟨h.tidy.store, ?_, ?_⟩
  · rw [hqueue, List.length_append, List.length_singleton, hsteps]
    omega
  · rw [hqueue, List.length_append, List.length_singleton, hsteps]
    omega

/-- A frame that grows pays for another visit. -/
theorem Budget.store_grown {old : Frame V} (h : w.Budget) (hold : w.frames.get target = some old)
    (hsize : f.size = old.size) (hgrown : f.slack < old.slack) : (w.store target f).Budget := by
  have hframe : w.frames[target] = some old := hold
  have hmissing := store_missing w target f
  have hslack := store_slack w target f
  have hallowance := store_allowance w target f
  have hleast := h.least
  have hmost := h.most
  have hsteps : (w.store target f).steps = w.steps := rfl
  have hqueue : w.queue.length ≤ (w.store target f).queue.length ∧
      (w.store target f).queue.length ≤ w.queue.length + 1 := by
    by_cases hmem : target ∈ w.queue
    · rw [queue_store_of_mem hmem]
      omega
    · rw [queue_store_of_not_mem hmem, List.length_append, List.length_singleton]
      omega
  rw [hframe] at hmissing hslack
  rw [hold] at hallowance
  simp only [absent, Option.isNone_some, room, share, hsize] at hmissing hslack hallowance
  refine ⟨h.tidy.store, ?_, ?_⟩
  · rw [hsteps]
    simp only [Bool.false_eq_true, if_false] at hmissing
    omega
  · rw [hsteps]
    omega

theorem Budget.propagate [DecidableEq V] (h : w.Budget) (hok : w.propagate target f = .ok w') :
    w'.Budget := by
  rcases propagate_eq_ok hok with ⟨hnone, rfl⟩ | ⟨old, hold, hheight, ⟨rfl, -⟩ | ⟨rfl, hne⟩⟩
  · exact h.store_new hnone
  · exact h
  · exact h.store_grown hold (Frame.size_merged old f) (Frame.slack_merged_lt hheight hne)

/-- Taking a place out of the queue makes a queued visit one that is made. -/
theorem Budget.dequeued (h : w.Budget) {i : Fin n} {rest : List (Fin n)}
    (hq : w.queue = i :: rest) : (w.dequeued rest).Budget := by
  have hleast := h.least
  have hmost := h.most
  rw [hq, List.length_cons] at hleast hmost
  refine ⟨(h.tidy.dequeued hq).1, ?_, ?_⟩
  · show n ≤ w.steps + 1 + rest.length + w.missing
    omega
  · show w.steps + 1 + rest.length + w.slack ≤ w.allowance
    omega

/-- The state before the first place is reached. -/
def blank (s : S) (n : Nat) : Worklist V S n where
  frames := Vector.replicate n none
  queue := []
  record := s
  steps := 0

theorem blank_budget (s : S) (n : Nat) : (blank s n : Worklist V S n).Budget := by
  have hmissing : (blank s n : Worklist V S n).missing = n := by
    simp [missing, blank, total_replicate, absent]
  have hslack : (blank s n : Worklist V S n).slack = 0 := by
    simp [slack, blank, total_replicate, room]
  refine ⟨⟨List.nodup_nil, fun _ h => absurd h List.not_mem_nil⟩, ?_, ?_⟩
  · omega
  · show 0 + 0 + slack _ ≤ _
    omega

end Budget

section Visits

variable [FiniteHeight V] {I : Interpreter V S} {m : Method}

theorem initial_budget (s : S) (hne : 0 < m.code.length) : (initial I s m hne).Budget := by
  have hstart : initial I s m hne = (blank s m.code.length).store ⟨0, hne⟩
      (Frame.new m.maxLocals m.maxStack (I.newValue s)) := rfl
  rw [hstart]
  exact (blank_budget s _).store_new (Vector.getElem_replicate hne)

variable [DecidableEq V]

/-- The budget is kept to the end. -/
theorem ends_budget {w last : Worklist V S m.code.length} (h : w.Budget)
    (hends : Ends I m w (.ok last)) : last.Budget ∧ last.queue = [] := by
  refine ends_induction ?_ h hends
  intro v i rest v' hv hq hvisit _
  exact visit_induction (fun _ _ _ _ hw hok => hw.propagate hok)
    (fun _ _ hw => ⟨⟨hw.tidy.nodup, hw.tidy.present⟩, hw.least, hw.most⟩) (hv.dequeued hq) hvisit

end Visits
end Worklist

/-! ## The number of visits -/

open Worklist

/-- The instructions that have a frame. -/
def Analysis.reached (a : Analysis V S) : Finset Nat :=
  (Finset.range a.frames.length).filter fun i => (a.frame? i).isSome = true

theorem total_eq_sum {α : Type} (weight : Option α → Nat) (slots : List (Option α)) :
    total weight slots = ∑ i ∈ Finset.range slots.length, weight (slots[i]?.join) := by
  induction slots with
  | nil => rfl
  | cons slot slots ih =>
    rw [List.length_cons, Finset.sum_range_succ', total, ih, Nat.add_comm]
    rfl

/-- Places that have no frame add nothing. -/
theorem Analysis.total_frames (a : Analysis V S) (weight : Option (Frame V) → Nat)
    (hnone : weight none = 0) :
    total weight a.frames = ∑ i ∈ a.reached, weight (a.frame? i) := by
  rw [total_eq_sum, reached, Finset.sum_filter_of_ne]
  · rfl
  · intro i _ hi
    rw [Option.isSome_iff_ne_none]
    intro h
    rw [h] at hi
    exact hi hnone

theorem Analysis.card_reached (a : Analysis V S) :
    a.reached.card + total Worklist.absent a.frames = a.frames.length := by
  rw [total_eq_sum, reached, Finset.card_filter, ← Finset.sum_add_distrib]
  have hone : ∀ i, (if (a.frame? i).isSome = true then 1 else 0) +
      Worklist.absent (a.frames[i]?.join) = 1 := by
    intro i
    show (if (a.frame? i).isSome = true then 1 else 0) + Worklist.absent (a.frame? i) = 1
    cases a.frame? i <;> rfl
  simp [hone]

variable [FiniteHeight V] [DecidableEq V] {I : Interpreter V S} {s : S} {m : Method}
  {a : Analysis V S}

theorem Analyzes.mem_reached (h : Analyzes I s m (.ok a)) {i : Nat} :
    i ∈ a.reached ↔ m.Reachable i := by
  rw [← h.isReachable_iff, Analysis.reached, Finset.mem_filter, Finset.mem_range]
  constructor
  · intro hi
    exact hi.2
  · intro hi
    obtain ⟨f, hf⟩ := Analysis.isReachable_eq_true.1 hi
    have hlt := h.lt_of_frame hf
    obtain ⟨hne, w, -, -, rfl⟩ := analyzes_ok_iff.1 h
    exact ⟨by simpa using hlt, hi⟩

/-- An analysis visits every reachable instruction, and visits it again only as often as the
values of its frame can grow. -/
theorem Analyzes.steps_bounds (hI : I.KeepsShape) (h : Analyzes I s m (.ok a)) :
    a.reached.card ≤ a.steps ∧
      a.steps ≤ ∑ i ∈ a.reached, (1 + height V * (m.maxLocals + (a.height? i).getD 0)) := by
  have hallowance : total share a.frames =
      ∑ i ∈ a.reached, (1 + height V * (m.maxLocals + (a.height? i).getD 0)) := by
    rw [a.total_frames share rfl]
    apply Finset.sum_congr rfl
    intro i hi
    obtain ⟨f, hf⟩ := Analysis.isReachable_eq_true.1 ((h.isReachable_iff i).2 (h.mem_reached.1 hi))
    have hwidth := (h.sized hI hf).width
    rw [Analysis.height?, hf, share, Frame.size, hwidth]
    rfl
  rw [← hallowance]
  have hcard := a.card_reached
  obtain ⟨hne, w, -, hends, ha⟩ := analyzes_ok_iff.1 h
  obtain ⟨hbudget, hempty⟩ := ends_budget (initial_budget s hne) hends
  have hleast := hbudget.least
  have hmost := hbudget.most
  rw [hempty, List.length_nil] at hleast hmost
  have hsteps : a.steps = w.steps := congrArg Analysis.steps ha
  have hframes : a.frames = w.frames.toList := congrArg Analysis.frames ha
  have hlen : w.frames.toList.length = m.code.length := w.frames.length_toList
  rw [hframes] at hcard ⊢
  rw [hsteps]
  refine ⟨?_, ?_⟩
  · have hmissing : w.missing = total absent w.frames.toList := rfl
    omega
  · have hallowed : w.allowance = total share w.frames.toList := rfl
    omega

end PoolLint.Flow

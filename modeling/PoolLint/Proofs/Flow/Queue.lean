import Mathlib.Data.List.Nodup
import PoolLint.Proofs.Flow.Stability

/-!
# The queue of the worklist

The queue holds no place twice, and only places that have a frame (`Worklist.Tidy`). Hence a
place that gets its first frame is not queued yet, and leaving a place out of the queue while it
is visited makes it possible to queue it again.

A visit changes frames and queue only by propagating frames, so what every propagation keeps, a
visit keeps (`visit_induction`).
-/

namespace PoolLint.Flow
namespace Worklist

open PoolLint.Bytecode

variable {V S : Type} {n : Nat} {w : Worklist V S n} {target : Fin n} {f : Frame V}

/-! ## Queueing a place -/

theorem queue_store_of_mem (h : target ∈ w.queue) : (w.store target f).queue = w.queue :=
  if_pos h

theorem queue_store_of_not_mem (h : target ∉ w.queue) :
    (w.store target f).queue = w.queue ++ [target] :=
  if_neg h

/-- No place is queued twice, and queued places have a frame. -/
structure Tidy (w : Worklist V S n) : Prop where
  nodup : w.queue.Nodup
  present : ∀ k ∈ w.queue, w.frames.get k ≠ none

theorem Tidy.not_mem (h : w.Tidy) (hnone : w.frames.get target = none) : target ∉ w.queue :=
  fun hmem => h.present target hmem hnone

theorem Tidy.store (h : w.Tidy) : (w.store target f).Tidy := by
  have hpresent : ∀ k, k = target ∨ k ∈ w.queue → (w.store target f).frames.get k ≠ none := by
    intro k hk
    by_cases heq : k = target
    · rw [heq, frames_store_self]
      simp
    · rw [frames_store_ne w f heq]
      exact h.present k (hk.resolve_left heq)
  by_cases hmem : target ∈ w.queue
  · have hqueue : (w.store target f).queue = w.queue := queue_store_of_mem hmem
    refine ⟨hqueue ▸ h.nodup, ?_⟩
    intro k hk
    exact hpresent k (.inr (hqueue ▸ hk))
  · have hqueue : (w.store target f).queue = w.queue ++ [target] := queue_store_of_not_mem hmem
    refine ⟨?_, ?_⟩
    · rw [hqueue]
      have hapart : List.Disjoint w.queue [target] := by simpa using hmem
      exact h.nodup.append (List.nodup_singleton target) hapart
    · intro k hk
      rw [hqueue, List.mem_append, List.mem_singleton] at hk
      exact hpresent k hk.symm

/-- The first place of the queue is in it only once. -/
theorem Tidy.dequeued (h : w.Tidy) {i : Fin n} {rest : List (Fin n)} (hq : w.queue = i :: rest) :
    (w.dequeued rest).Tidy ∧ i ∉ rest := by
  have hnodup : (i :: rest).Nodup := hq ▸ h.nodup
  have hrest : ∀ k ∈ rest, w.frames.get k ≠ none := by
    intro k hk
    exact h.present k (hq ▸ List.mem_cons_of_mem i hk)
  obtain ⟨hi, hnodup'⟩ := List.nodup_cons.1 hnodup
  exact ⟨⟨hnodup', hrest⟩, hi⟩

/-! ## What a visit keeps -/

section Visit

variable [JoinSemilattice V] [DecidableEq V] {I : Interpreter V S} {m : Method}

/-- What every propagation keeps, whatever the record is, a visit keeps. -/
theorem visit_induction {P : Worklist V S m.code.length → Prop}
    (propagate : ∀ w w' target f, P w → w.propagate target f = .ok w' → P w')
    (record : ∀ w r, P w → P { w with record := r }) {w w' : Worklist V S m.code.length}
    {i : Fin m.code.length} (hw : P w) (h : w.visit I m i = .ok w') : P w' := by
  cases hbefore : w.frames.get i with
  | none =>
    rw [visit_of_none hbefore] at h
    obtain rfl : w = w' := Except.ok.inj h
    exact hw
  | some before =>
    obtain ⟨w₁, r, after, hhandlers, -, hsuccessors⟩ := (visit_eq_ok hbefore).1 h
    have hw₁ : P w₁ := by
      refine foldlM_induction _ ?_ hw hhandlers
      intro v v' handler _ hv hstep
      unfold enterHandler at hstep
      split at hstep
      · split at hstep
        · cases hstep
        · exact propagate v v' _ _ hv hstep
      · cases hstep
    refine foldlM_induction _ ?_ (record w₁ r hw₁) hsuccessors
    intro v v' j _ hv hstep
    unfold enterSuccessor at hstep
    split at hstep
    · exact propagate v v' _ _ hv hstep
    · cases hstep

theorem propagate_tidy {w w' : Worklist V S n} (h : w.Tidy)
    (hok : w.propagate target f = .ok w') : w'.Tidy := by
  rcases propagate_eq_ok hok with ⟨-, rfl⟩ | ⟨old, -, -, ⟨rfl, -⟩ | ⟨rfl, -⟩⟩
  · exact h.store
  · exact h
  · exact h.store

theorem visit_tidy {w w' : Worklist V S m.code.length} {i : Fin m.code.length} (h : w.Tidy)
    (hok : w.visit I m i = .ok w') : w'.Tidy :=
  visit_induction (fun _ _ _ _ => propagate_tidy) (fun _ _ h => ⟨h.nodup, h.present⟩) h hok

end Visit

/-- At the start the first place is queued, and has the entry frame. -/
theorem initial_tidy {I : Interpreter V S} {m : Method} (s : S) (hne : 0 < m.code.length) :
    (initial I s m hne).Tidy := by
  refine ⟨List.nodup_singleton _, ?_⟩
  intro k hk
  obtain rfl : k = ⟨0, hne⟩ := List.mem_singleton.1 hk
  have hentry := frames_initial_zero (I := I) s hne
  intro hnone
  cases hnone.symm.trans hentry

end Worklist
end PoolLint.Flow

import PoolLint.Flow.Interpreter

/-!
# The flow analysis

A method is analysed by a worklist: take the next instruction, run it on the frame before it,
merge the outcome into the frame of every place control can pass to, and queue the places
whose frame changed. Handler edges carry the locals before the instruction and are followed
first. The queue is first in, first out and never holds a place twice.

A place without a frame is unreached. The analysis ends although an interpreter may change
frames at will: each merge that changes a stored frame uses up some of the room its values
have to grow, and each other step shortens the queue.
-/

namespace PoolLint.Flow

open PoolLint.Bytecode

/-! ## What is checked before the first step -/

/-- The largest number of local slots and the largest stack limit of a method. -/
def maxFrameSlots : Nat := 65535

/-- The declared targets of a jump, in the order they are checked. -/
def jumpTargets : Instruction → List Nat
  | .goto target | .ifZero target | .ifCmp target => [target]
  | .switch targets default => default :: targets
  | _ => []

/-- A frame declared larger than any method may have. -/
def sizeFault? (m : Method) : Option FlowError :=
  if m.maxLocals ≤ maxFrameSlots ∧ m.maxStack.all (· ≤ maxFrameSlots) then none
  else some (.frameTooLarge m.maxLocals m.maxStack maxFrameSlots)

/-- The first jump out of the method. -/
def branchFault? (m : Method) : Option FlowError :=
  m.code.zipIdx.findSome? fun (instr, i) =>
    (jumpTargets instr).find? (m.code.length ≤ ·) |>.map (.branchOutOfRange i)

/-- The first handler with an empty range, or with a range or target outside the method. -/
def handlerFault? (m : Method) : Option FlowError :=
  m.handlers.find? (fun h =>
      h.stop ≤ h.start || m.code.length < h.stop || m.code.length ≤ h.target)
    |>.map fun h => .malformedHandler h.start h.stop h.target

/-- What is wrong with a method before any of it is executed. -/
def declarationFault? (m : Method) : Option FlowError :=
  sizeFault? m <|> branchFault? m <|> handlerFault? m

/-! ## The worklist -/

/-- The state of an analysis of `n` instructions: the frame found so far before each of
them, the instructions still to be visited, the interpreter's record, and the number of
visits made. -/
structure Worklist (V S : Type) (n : Nat) where
  frames : Vector (Option (Frame V)) n
  queue : List (Fin n)
  record : S
  steps : Nat

namespace Worklist

variable {V S : Type} {n : Nat}

/-- Stores a frame and queues its place, unless it is queued already. -/
def store (w : Worklist V S n) (target : Fin n) (f : Frame V) : Worklist V S n :=
  { w with
    frames := w.frames.set target (some f)
    queue := if target ∈ w.queue then w.queue else w.queue ++ [target] }

/-- Merges a frame into the one before `target`, which is queued if that changes it. -/
def propagate [JoinSemilattice V] [DecidableEq V] (w : Worklist V S n) (target : Fin n)
    (f : Frame V) : Except FlowError (Worklist V S n) :=
  match w.frames[target] with
  | none => .ok (w.store target f)
  | some old =>
    match old.mergeFrom f with
    | .error cause => .error (.frame target cause)
    | .ok (_, false) => .ok w
    | .ok (merged, true) => .ok (w.store target merged)

/-- Follows the edge to an exception handler. -/
def enterHandler [JoinSemilattice V] [DecidableEq V] (I : Interpreter V S) (before : Frame V)
    (w : Worklist V S n) (h : Handler) : Except FlowError (Worklist V S n) :=
  if inRange : h.target < n then
    match I.handlerEntry w.record before with
    | .error cause => .error (.frame h.target cause)
    | .ok entry => w.propagate ⟨h.target, inRange⟩ entry
  else .error (.malformedHandler h.start h.stop h.target)

/-- Follows the edge from instruction `i` to a normal successor. -/
def enterSuccessor [JoinSemilattice V] [DecidableEq V] (i : Nat) (after : Frame V)
    (w : Worklist V S n) (target : Nat) : Except FlowError (Worklist V S n) :=
  if inRange : target < n then w.propagate ⟨target, inRange⟩ after
  else .error (.fallsOffEnd i)

/-- Executes instruction `i` and follows its edges, handlers first. -/
def visit [JoinSemilattice V] [DecidableEq V] (I : Interpreter V S) (m : Method)
    (w : Worklist V S m.code.length) (i : Fin m.code.length) :
    Except FlowError (Worklist V S m.code.length) :=
  match w.frames[i] with
  | none => .ok w
  | some before => do
    let w ← (m.handlersCovering i).foldlM (enterHandler I before) w
    let (record, after) ← I.execute w.record i m.code[i] before
    (m.successors i).foldlM (enterSuccessor i after) { w with record := record }

/-- The start: only the first instruction is queued, before it a frame of new values. -/
def initial (I : Interpreter V S) (record : S) (m : Method) (nonempty : 0 < m.code.length) :
    Worklist V S m.code.length where
  frames := (Vector.replicate m.code.length none).set 0
    (some (Frame.new m.maxLocals m.maxStack (I.newValue record)))
  queue := [⟨0, nonempty⟩]
  record := record
  steps := 0

/-! ## Why it ends -/

section Measure

/-- A place without a frame counts one. -/
def absent (slot : Option (Frame V)) : Nat :=
  if slot.isNone then 1 else 0

/-- The number of places not reached yet. -/
def missing (w : Worklist V S n) : Nat :=
  total absent w.frames.toList

theorem store_missing (w : Worklist V S n) (target : Fin n) (f : Frame V) :
    (w.store target f).missing + absent w.frames[target] = w.missing := by
  have h := total_set absent w.frames.toList target (some f) (by simp)
  simpa [missing, store, absent, Vector.toList_set] using h

variable [FiniteHeight V]

/-- The room for growth of a stored frame. -/
def room : Option (Frame V) → Nat
  | none => 0
  | some f => f.slack

/-- How often the stored frames can still grow, taken together. -/
def slack (w : Worklist V S n) : Nat :=
  total room w.frames.toList

/-- The analysis got ahead: it reached a new place or a stored frame grew. -/
def Advanced (w' w : Worklist V S n) : Prop :=
  w'.missing < w.missing ∨ w'.missing = w.missing ∧ w'.slack < w.slack

/-- The analysis got ahead, or frames and queue are what they were. -/
def AdvancedOrSame (w' w : Worklist V S n) : Prop :=
  Advanced w' w ∨ w'.frames = w.frames ∧ w'.queue = w.queue

theorem AdvancedOrSame.refl (w : Worklist V S n) : AdvancedOrSame w w :=
  .inr ⟨rfl, rfl⟩

theorem AdvancedOrSame.trans {a b c : Worklist V S n} (hab : AdvancedOrSame a b)
    (hbc : AdvancedOrSame b c) : AdvancedOrSame a c := by
  unfold AdvancedOrSame Advanced at *
  rcases hab with hab | ⟨hf, hq⟩
  · rcases hbc with hbc | ⟨hf, hq⟩
    · exact .inl (by omega)
    · have hm : b.missing = c.missing := by unfold missing; rw [hf]
      have hs : b.slack = c.slack := by unfold slack; rw [hf]
      exact .inl (by omega)
  · have hm : a.missing = b.missing := by unfold missing; rw [hf]
    have hs : a.slack = b.slack := by unfold slack; rw [hf]
    rcases hbc with hbc | ⟨hf', hq'⟩
    · exact .inl (by omega)
    · exact .inr ⟨hf.trans hf', hq.trans hq'⟩

theorem store_slack (w : Worklist V S n) (target : Fin n) (f : Frame V) :
    (w.store target f).slack + room w.frames[target] = w.slack + f.slack := by
  have h := total_set room w.frames.toList target (some f) (by simp)
  simpa [slack, store, room, Vector.toList_set] using h

theorem propagate_advanced [DecidableEq V] {w w' : Worklist V S n} {target : Fin n}
    {f : Frame V} (h : w.propagate target f = .ok w') : AdvancedOrSame w' w := by
  unfold propagate at h
  split at h
  · rename_i hnone
    obtain rfl : w.store target f = w' := by simpa using h
    have hm := store_missing w target f
    rw [hnone] at hm
    exact .inl (.inl (by simp [absent] at hm; omega))
  · rename_i old hold
    split at h
    · simp at h
    · obtain rfl : w = w' := by simpa using h
      exact .refl w
    · rename_i merged hmerge
      obtain rfl : w.store target merged = w' := by simpa using h
      have hm := store_missing w target merged
      have hs := store_slack w target merged
      have hlt := Frame.slack_lt_of_mergeFrom hmerge
      rw [hold] at hm hs
      simp only [absent, room] at hm hs
      exact .inl (.inr ⟨by simpa using hm, by omega⟩)

theorem enterHandler_advanced [DecidableEq V] {I : Interpreter V S} {before : Frame V}
    {w w' : Worklist V S n} {h : Handler} (hok : enterHandler I before w h = .ok w') :
    AdvancedOrSame w' w := by
  unfold enterHandler at hok
  split at hok
  · split at hok
    · simp at hok
    · exact propagate_advanced hok
  · simp at hok

theorem enterSuccessor_advanced [DecidableEq V] {i : Nat} {after : Frame V}
    {w w' : Worklist V S n} {target : Nat} (hok : enterSuccessor i after w target = .ok w') :
    AdvancedOrSame w' w := by
  unfold enterSuccessor at hok
  split at hok
  · exact propagate_advanced hok
  · simp at hok

theorem foldlM_advanced {α : Type} {g : Worklist V S n → α → Except FlowError (Worklist V S n)}
    (hg : ∀ w w' a, g w a = .ok w' → AdvancedOrSame w' w) (as : List α)
    {w w' : Worklist V S n} (h : as.foldlM g w = .ok w') : AdvancedOrSame w' w := by
  induction as generalizing w with
  | nil =>
    obtain rfl : w = w' := by simpa [pure, Except.pure] using h
    exact .refl w
  | cons a as ih =>
    rw [List.foldlM_cons] at h
    cases hga : g w a with
    | error e => rw [hga] at h; simp [bind, Except.bind] at h
    | ok next =>
      rw [hga] at h
      exact (ih h).trans (hg w next a hga)

theorem visit_advanced [DecidableEq V] {I : Interpreter V S} {m : Method}
    {w w' : Worklist V S m.code.length} {i : Fin m.code.length} (h : w.visit I m i = .ok w') :
    AdvancedOrSame w' w := by
  unfold visit at h
  split at h
  · obtain rfl : w = w' := by simpa using h
    exact .refl w
  · rename_i before _
    cases hh : (m.handlersCovering i).foldlM (enterHandler I before) w with
    | error e => rw [hh] at h; simp [bind, Except.bind] at h
    | ok w₁ =>
      rw [hh] at h
      simp only [bind, Except.bind] at h
      split at h
      · simp at h
      · have h₂ := foldlM_advanced (fun _ _ _ => enterSuccessor_advanced) _ h
        have h₁ := foldlM_advanced (fun _ _ _ => enterHandler_advanced) _ hh
        exact AdvancedOrSame.trans h₂ h₁

end Measure

/-- Visits queued instructions until none is left. -/
def run [FiniteHeight V] [DecidableEq V] (I : Interpreter V S) (m : Method)
    (w : Worklist V S m.code.length) : Except FlowError (Worklist V S m.code.length) :=
  match _hq : w.queue with
  | [] => .ok w
  | i :: rest =>
    match _hv : visit I m { w with queue := rest, steps := w.steps + 1 } i with
    | .error e => .error e
    | .ok w' => run I m w'
termination_by (w.missing, w.slack, w.queue.length)
decreasing_by
  have hadv := visit_advanced _hv
  have hm : (missing { w with queue := rest, steps := w.steps + 1 }) = w.missing := rfl
  have hs : (slack { w with queue := rest, steps := w.steps + 1 }) = w.slack := rfl
  rcases hadv with (hlt | ⟨heq, hlt⟩) | ⟨hframes, hqueue⟩
  · exact Prod.Lex.left _ _ (by omega)
  · rw [heq, hm]
    exact Prod.Lex.right _ (Prod.Lex.left _ _ (by omega))
  · have hm' : w'.missing = w.missing := by unfold missing; rw [hframes]
    have hs' : w'.slack = w.slack := by unfold slack; rw [hframes]
    rw [hm', hs', hqueue, _hq]
    exact Prod.Lex.right _ (Prod.Lex.right _ (by simp))

end Worklist

/-! ## The analysis of a method -/

/-- The outcome of an analysis: the frame before each instruction, the interpreter's record
and the number of visits. -/
structure Analysis (V S : Type) where
  frames : List (Option (Frame V))
  record : S
  steps : Nat

namespace Analysis

variable {V S : Type}

/-- The frame before an instruction, `none` for unreached ones and past the end. -/
def frame? (a : Analysis V S) (i : Nat) : Option (Frame V) :=
  (a.frames[i]?).join

/-- An instruction is reachable if it has a frame. -/
def isReachable (a : Analysis V S) (i : Nat) : Bool :=
  (a.frame? i).isSome

end Analysis

/-- Analyses a method, or says why that has to be given up. -/
def analyze {V S : Type} [FiniteHeight V] [DecidableEq V] (I : Interpreter V S) (record : S)
    (m : Method) : Except FlowError (Analysis V S) :=
  if nonempty : 0 < m.code.length then
    match declarationFault? m with
    | some e => .error e
    | none => do
      let w ← Worklist.run I m (Worklist.initial I record m nonempty)
      return ⟨w.frames.toList, w.record, w.steps⟩
  else .error .emptyMethod

end PoolLint.Flow

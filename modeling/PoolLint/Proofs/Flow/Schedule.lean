import Mathlib.Logic.Relation
import PoolLint.Proofs.Flow.Heights

/-!
# Visits in any order

The worklist takes the place that was queued first, and follows the edges out of it handlers
first. Here both are left open: a step visits any queued place and follows its edges in any order
(`Worklist.Step`). What does not depend on the order can then be said of all runs at once.

* Steps keep what executions and merges keep (`allFrames_step`), and settle the place that was
  visited (`step_stable`).
* Where stack heights are consistent no order makes a visit fail (`visitBy_ok`).
* Where values have finite height every order comes to an end (`step_wellFounded`).
* The worklist is one of the orders (`ends_steps`).
-/

namespace PoolLint.Flow

open PoolLint.Bytecode

variable {V S : Type} {m : Method}

/-- An edge out of an instruction. -/
inductive Exit where
  | handler (h : Handler)
  | successor (j : Nat)
deriving DecidableEq, Repr

/-- The edges out of an instruction, in the order in which `Worklist.visit` follows them. -/
def exits (m : Method) (i : Nat) : List Exit :=
  (m.handlersCovering i).map .handler ++ (m.successors i).map .successor

theorem handler_mem_exits {i : Nat} {h : Handler} :
    .handler h ∈ exits m i ↔ h ∈ m.handlersCovering i := by
  simp [exits]

theorem successor_mem_exits {i j : Nat} : .successor j ∈ exits m i ↔ j ∈ m.successors i := by
  simp [exits]

namespace Worklist

variable {n : Nat}

section Join

variable [JoinSemilattice V] [DecidableEq V]

/-- Follows one edge out of instruction `i`. -/
def follow (I : Interpreter V S) (i : Nat) (before after : Frame V) (w : Worklist V S n) :
    Exit → Except FlowError (Worklist V S n)
  | .handler h => enterHandler I before w h
  | .successor j => enterSuccessor i after w j

/-- Executes instruction `i` and follows its edges in the given order. -/
def visitBy (I : Interpreter V S) (m : Method) (order : List Exit)
    (w : Worklist V S m.code.length) (i : Fin m.code.length) :
    Except FlowError (Worklist V S m.code.length) :=
  match w.frames.get i with
  | none => .ok w
  | some before => do
    let (record, after) ← I.execute w.record i (m.code.get i) before
    order.foldlM (follow I i before after) { w with record := record }

/-- The state from which a queued place is visited. -/
def taken (w : Worklist V S n) (i : Fin n) : Worklist V S n :=
  { w with queue := w.queue.erase i, steps := w.steps + 1 }

/-- Some queued place is visited, and its edges are followed in some order. -/
def Step (I : Interpreter V S) (m : Method) (w w' : Worklist V S m.code.length) : Prop :=
  ∃ i ∈ w.queue, ∃ order, order.Perm (exits m i) ∧ visitBy I m order (w.taken i) i = .ok w'

/-! ## What a visit does, whatever the order -/

variable {I : Interpreter V S}

/-- The place behind an edge has received what is sent along it. -/
def Delivered (I : Interpreter V S) (record : S) (before after : Frame V) :
    Exit → Worklist V S n → Prop
  | .handler h, w => ∃ entry, I.handlerEntry record before = .ok entry ∧ w.Received h.target entry
  | .successor j, w => w.Received j after

/-- What a place has received is not taken back. -/
theorem Delivered.later {record : S} {before after : Frame V} {exit : Exit} {w w' : Worklist V S n}
    (h : Delivered I record before after exit w) (hlater : Later w w') :
    Delivered I record before after exit w' := by
  cases exit with
  | handler handler =>
    obtain ⟨entry, hentry, hreceived⟩ := h
    exact ⟨entry, hentry, hreceived.later hlater⟩
  | successor j => exact Received.later h hlater

/-- Following an edge delivers what is sent along it. -/
theorem follow_spec {i : Nat} {before after : Frame V} {exit : Exit} {w w' : Worklist V S n}
    (h : follow I i before after w exit = .ok w') :
    Later w w' ∧ w'.record = w.record ∧ Delivered I w.record before after exit w' := by
  cases exit with
  | handler handler => exact enterHandler_spec h
  | successor j => exact enterSuccessor_spec h

theorem visitBy_of_none {order : List Exit} {w : Worklist V S m.code.length}
    {i : Fin m.code.length} (h : w.frames.get i = none) : visitBy I m order w i = .ok w := by
  unfold visitBy
  rw [h]

/-- A visit succeeds if the instruction can be executed and all its edges can be followed. -/
theorem visitBy_eq_ok {order : List Exit} {w w' : Worklist V S m.code.length}
    {i : Fin m.code.length} {before : Frame V} (h : w.frames.get i = some before) :
    visitBy I m order w i = .ok w' ↔ ∃ record after,
      I.execute w.record i (m.code.get i) before = .ok (record, after) ∧
        order.foldlM (follow I i before after) { w with record := record } = .ok w' := by
  unfold visitBy
  rw [h]
  constructor
  · intro hok
    obtain ⟨⟨record, after⟩, hexecute, hfollow⟩ := bind_eq_ok.1 hok
    exact ⟨record, after, hexecute, hfollow⟩
  · rintro ⟨record, after, hexecute, hfollow⟩
    exact bind_eq_ok.2 ⟨(record, after), hexecute, hfollow⟩

/-- A successful visit executes the instruction on the frame before it and delivers the outcome
along the edges that are followed. -/
theorem visitBy_spec {order : List Exit} {w w' : Worklist V S m.code.length}
    {i : Fin m.code.length} {before : Frame V} (hbefore : w.frames.get i = some before)
    (h : visitBy I m order w i = .ok w') :
    Later w w' ∧ ∃ after,
      I.execute w.record i (m.code.get i) before = .ok (w'.record, after) ∧
      ∀ exit ∈ order, Delivered I w'.record before after exit w' := by
  obtain ⟨record, after, hexecute, hfollow⟩ := (visitBy_eq_ok hbefore).1 h
  have hedge : ∀ (v v' : Worklist V S m.code.length) exit, v.record = record →
      follow I i before after v exit = .ok v' →
        Later v v' ∧ v'.record = v.record ∧ Delivered I record before after exit v' := by
    intro v v' exit hrecord hok
    rw [← hrecord]
    exact follow_spec hok
  obtain ⟨hlater, hrecord, hdelivered⟩ :=
    foldlM_spec record (Delivered I record before after) hedge
      (fun _ _ _ hlater hdelivered => hdelivered.later hlater) order rfl hfollow
  -- noting the new record touches neither frames nor queue
  have hlater' : Later w w' := ⟨hlater.frames, hlater.queue, hlater.changed⟩
  rw [← hrecord] at hexecute hdelivered
  exact ⟨hlater', after, hexecute, hdelivered⟩

/-- A step is a step forward, apart from the place that is taken off the queue. -/
theorem step_later {w w' : Worklist V S m.code.length} (h : Step I m w w') :
    ∃ i, Later (w.taken i) w' := by
  obtain ⟨i, -, order, -, hok⟩ := h
  refine ⟨i, ?_⟩
  cases hbefore : w.frames.get i with
  | none =>
    rw [visitBy_of_none (w := w.taken i) hbefore] at hok
    obtain rfl : w.taken i = w' := Except.ok.inj hok
    exact .refl _
  | some before => exact (visitBy_spec (w := w.taken i) hbefore hok).1

variable {le : S → S → Prop}

/-- A step settles the place that is visited, or queues it again. -/
theorem step_stable (hI : I.Accumulates le) {w w' : Worklist V S m.code.length}
    (h : Stable I m le w) (hstep : Step I m w w') : Stable I m le w' := by
  obtain ⟨i, -, order, hperm, hok⟩ := hstep
  have hqueue : ∀ k ∈ w.queue, k ≠ i → k ∈ (w.taken i).queue :=
    fun k hk hki => (List.mem_erase_of_ne hki).2 hk
  cases hbefore : w.frames.get i with
  | none =>
    rw [visitBy_of_none (w := w.taken i) hbefore] at hok
    obtain rfl : w.taken i = w' := Except.ok.inj hok
    apply h.advance hI hqueue (.refl _) (hI.refl _)
    intro f hf
    cases hbefore.symm.trans hf
  | some before =>
    obtain ⟨hlater, after, hexecute, hdelivered⟩ :=
      visitBy_spec (w := w.taken i) hbefore hok
    apply h.advance hI hqueue hlater (hI.execute hexecute)
    intro f hf
    obtain rfl : before = f := Option.some.inj (hbefore.symm.trans hf)
    refine ⟨w.record, w'.record, after, hexecute, hI.refl _, ?_, ?_⟩
    · intro j hj
      exact hdelivered (.successor j) (hperm.mem_iff.2 (successor_mem_exits.2 hj))
    · intro handler hmem
      exact ⟨w'.record, hdelivered (.handler handler) (hperm.mem_iff.2 (handler_mem_exits.2 hmem))⟩

/-- Steps keep what executions and merges keep. -/
theorem allFrames_step {P : Nat → Frame V → Prop} {last : S}
    (hkept : Kept I m (fun _ _ => True) last P fun _ => True) {w w' : Worklist V S m.code.length}
    (h : w.AllFrames P) (hstep : Step I m w w') : w'.AllFrames P := by
  obtain ⟨i, -, order, hperm, hok⟩ := hstep
  cases hbefore : w.frames.get i with
  | none =>
    rw [visitBy_of_none (w := w.taken i) hbefore] at hok
    obtain rfl : w.taken i = w' := Except.ok.inj hok
    exact h
  | some before =>
    have hcode : m.code[(i : Nat)]? = some m.code[i] := List.getElem?_eq_getElem i.isLt
    obtain ⟨record, after, hexecute, hfollow⟩ := (visitBy_eq_ok (w := w.taken i) hbefore).1 hok
    have hafter := (hkept.execute hcode (h i before hbefore) trivial hexecute trivial).2
    refine foldlM_induction (P := fun v => v.AllFrames P) order
      (w := { w.taken i with record := record }) ?_ h hfollow
    intro v v' exit hmem hv hedge
    cases exit with
    | handler handler =>
      have hcovers := handler_mem_exits.1 (hperm.mem_iff.1 hmem)
      refine allFrames_enterHandler hkept.merge hv ?_ hedge
      intro entry hentry
      exact hkept.handler (h i before hbefore) trivial hcovers hentry
    | successor j =>
      have hj := successor_mem_exits.1 (hperm.mem_iff.1 hmem)
      exact allFrames_enterSuccessor hkept.merge hv (hafter j hj) hedge

/-- If heights are consistent, a visit cannot fail, in whatever order the edges are followed. -/
theorem visitBy_ok (hI : I.KeepsShape) (hm : m.WellDeclared) {height : Nat → Nat}
    (hc : StackConsistent m height) {w : Worklist V S m.code.length}
    (h : w.AllFrames (Placed m height)) {i : Fin m.code.length} {order : List Exit}
    (hperm : order.Perm (exits m i)) :
    ∃ w', visitBy I m order w i = .ok w' ∧ w'.AllFrames (Placed m height) := by
  cases hbefore : w.frames.get i with
  | none => exact ⟨w, visitBy_of_none hbefore, h⟩
  | some before =>
    have hplaced := h i before hbefore
    obtain ⟨record, after, hexecute, hsuccessors⟩ := execute_ok hI hc hplaced w.record
    obtain ⟨w', hw', h'⟩ := foldlM_ok (P := fun w => w.AllFrames (Placed m height))
      (g := follow I i before after) order (w := { w with record := record }) (by
        intro v exit hmem hv
        cases exit with
        | handler handler =>
          exact enterHandler_ok hm hc hplaced (handler_mem_exits.1 (hperm.mem_iff.1 hmem)) hv
        | successor j =>
          exact hsuccessors v j (successor_mem_exits.1 (hperm.mem_iff.1 hmem)) hv) h
    exact ⟨w', (visitBy_eq_ok hbefore).2 ⟨record, after, hexecute, hw'⟩, h'⟩

/-! ## The order of the worklist -/

omit [JoinSemilattice V] [DecidableEq V] in
theorem store_withRecord (w : Worklist V S n) (record : S) (target : Fin n) (f : Frame V) :
    ({ w with record := record } : Worklist V S n).store target f =
      { w.store target f with record := record } := rfl

theorem propagate_withRecord (w : Worklist V S n) (record : S) (target : Fin n) (f : Frame V) :
    ({ w with record := record } : Worklist V S n).propagate target f =
      (w.propagate target f).map ({ · with record := record }) := by
  unfold propagate
  simp only [store_withRecord]
  split
  · rfl
  · split <;> rfl

/-- An interpreter that does not look at its record enters a handler in the same way, whether the
outcome of the execution was noted before. -/
theorem enterHandler_withRecord (hI : I.IgnoresRecord) (before : Frame V) (w : Worklist V S n)
    (record : S) (h : Handler) :
    enterHandler I before { w with record := record } h =
      (enterHandler I before w h).map ({ · with record := record }) := by
  unfold enterHandler Interpreter.handlerEntry
  simp only [hI.newValue record w.record]
  split
  · split
    · rfl
    · rw [propagate_withRecord]
  · rfl

theorem foldlM_enterHandler_withRecord (hI : I.IgnoresRecord) (before : Frame V) (record : S)
    (handlers : List Handler) {w w' : Worklist V S n}
    (h : handlers.foldlM (enterHandler I before) w = .ok w') :
    handlers.foldlM (enterHandler I before) { w with record := record } =
      .ok { w' with record := record } := by
  induction handlers generalizing w with
  | nil =>
    obtain rfl : w = w' := Except.ok.inj h
    rfl
  | cons handler handlers ih =>
    rw [List.foldlM_cons] at h ⊢
    obtain ⟨next, hstep, hrest⟩ := bind_eq_ok.1 h
    rw [enterHandler_withRecord hI, hstep]
    exact ih hrest

/-- The visit of the worklist follows the edges in one of the orders. -/
theorem visitBy_of_visit (hI : I.IgnoresRecord) {w w' : Worklist V S m.code.length}
    {i : Fin m.code.length} (h : visit I m w i = .ok w') :
    visitBy I m (exits m i) w i = .ok w' := by
  cases hbefore : w.frames.get i with
  | none =>
    rw [visit_of_none hbefore] at h
    rw [visitBy_of_none hbefore, h]
  | some before =>
    have hframe : w.frames[i] = some before := hbefore
    unfold visit at h
    rw [hframe] at h
    obtain ⟨w₁, hhandlers, h⟩ := bind_eq_ok.1 h
    obtain ⟨⟨record, after⟩, hexecute, hsuccessors⟩ := bind_eq_ok.1 h
    have hrecord : w₁.record = w.record := (foldlM_spec w.record (fun _ _ => True)
      (fun _ _ _ _ hok => ⟨(enterHandler_spec hok).1, (enterHandler_spec hok).2.1, trivial⟩)
      (fun _ _ _ _ _ => trivial) _ rfl hhandlers).2.1
    rw [hrecord] at hexecute
    have hfirst := foldlM_enterHandler_withRecord hI before record _ hhandlers
    refine (visitBy_eq_ok hbefore).2 ⟨record, after, hexecute, ?_⟩
    rw [exits, List.foldlM_append, List.foldlM_map]
    refine bind_eq_ok.2 ⟨_, hfirst, ?_⟩
    rw [List.foldlM_map]
    exact hsuccessors

/-- Working off the queue is a run of steps, at the end of which nothing is queued. -/
theorem ends_steps (hI : I.IgnoresRecord) {w last : Worklist V S m.code.length}
    (h : Ends I m w (.ok last)) :
    Relation.ReflTransGen (Step I m) w last ∧ last.queue = [] := by
  refine ends_induction (P := fun v => Relation.ReflTransGen (Step I m) w v) ?_ .refl h
  intro v i rest v' hsteps hq hvisit _
  have htaken : v.taken i = v.dequeued rest := by
    unfold taken dequeued
    rw [hq, List.erase_cons_head]
  have hmem : i ∈ v.queue := by
    rw [hq]
    exact List.mem_cons_self
  refine hsteps.tail ⟨i, hmem, exits m i, .refl _, ?_⟩
  rw [htaken]
  exact visitBy_of_visit hI hvisit

end Join

/-! ## Every order ends -/

variable [FiniteHeight V] [DecidableEq V] {I : Interpreter V S}

theorem visitBy_advanced {order : List Exit} {w w' : Worklist V S m.code.length}
    {i : Fin m.code.length} (h : visitBy I m order w i = .ok w') : AdvancedOrSame w' w := by
  cases hbefore : w.frames.get i with
  | none =>
    rw [visitBy_of_none hbefore] at h
    obtain rfl := Except.ok.inj h
    exact .refl w
  | some before =>
    obtain ⟨record, after, -, hfollow⟩ := (visitBy_eq_ok hbefore).1 h
    refine foldlM_advanced ?_ order (w := { w with record := record }) hfollow
    intro v v' exit hedge
    cases exit with
    | handler handler => exact enterHandler_advanced hedge
    | successor j => exact enterSuccessor_advanced hedge

/-- There is no endless run of steps: each reaches a new place, or a frame grows, or the queue
becomes shorter. -/
theorem step_wellFounded (I : Interpreter V S) (m : Method) :
    WellFounded fun w' w => Step I m w w' := by
  have hlex : WellFounded (Prod.Lex (· < ·) (Prod.Lex (· < ·) (· < ·)) :
      Nat × Nat × Nat → Nat × Nat × Nat → Prop) :=
    (Prod.lex Nat.lt_wfRel (Prod.lex Nat.lt_wfRel Nat.lt_wfRel)).wf
  refine Subrelation.wf ?_
    (InvImage.wf (fun w : Worklist V S m.code.length => (w.missing, w.slack, w.queue.length)) hlex)
  rintro w' w ⟨i, hmem, order, -, hok⟩
  have hmissing : (w.taken i).missing = w.missing := rfl
  have hslack : (w.taken i).slack = w.slack := rfl
  show Prod.Lex _ _ (w'.missing, w'.slack, w'.queue.length) (w.missing, w.slack, w.queue.length)
  rcases visitBy_advanced hok with (hlt | ⟨heq, hlt⟩) | ⟨hframes, hqueue⟩
  · apply Prod.Lex.left
    omega
  · rw [heq, hmissing]
    apply Prod.Lex.right
    apply Prod.Lex.left
    omega
  · have hmissing' : w'.missing = w.missing := by
      unfold missing
      rw [hframes, taken]
    have hslack' : w'.slack = w.slack := by
      unfold slack
      rw [hframes, taken]
    have hshorter : w'.queue.length < w.queue.length := by
      have hlength := List.length_erase_add_one hmem
      rw [hqueue]
      show (w.queue.erase i).length < w.queue.length
      omega
    rw [hmissing', hslack']
    exact Prod.Lex.right _ (Prod.Lex.right _ hshorter)

end Worklist
end PoolLint.Flow

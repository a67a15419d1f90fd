import PoolLint.Proofs.Flow.Run

/-!
# The frames of a finished analysis

Two facts about every analysis that ends with a frame table, for any interpreter:

* the table is stable (`Analyzes.settled`): executing an instruction on the frame before it
  yields nothing that the places after it do not absorb, and what that execution adds to the
  record is part of the final record;
* whatever holds of the entry frame, and is kept by executions and merges, holds of every
  frame (`Analyzes.frames`).

Neither needs the interpreter to be monotone, nor values of finite height, which only make sure
that there is an end (`analyzes_iff`). Stability rests on the worklist alone: a place whose frame
changes after its visit is queued again.
-/

namespace PoolLint.Flow

open PoolLint.Bytecode

variable {V S : Type}

/-- The relation orders records by what they contain, and executions only add to them. -/
structure Interpreter.Accumulates (I : Interpreter V S) (le : S → S → Prop) : Prop where
  refl : ∀ s, le s s
  trans : ∀ {s t u}, le s t → le t u → le s u
  execute : ∀ {s i instr f s' f'}, I.execute s i instr f = .ok (s', f') → le s s'

/-! ## Stability -/

section Join

variable [JoinSemilattice V] [DecidableEq V] {I : Interpreter V S} {m : Method}
  {le : S → S → Prop}

namespace Worklist

/-- The instruction was executed on this frame, and nothing about that execution is pending. -/
def Settled (I : Interpreter V S) (m : Method) (le : S → S → Prop)
    (w : Worklist V S m.code.length) (i : Fin m.code.length) (f : Frame V) : Prop :=
  ∃ s s' after, I.execute s i (m.code.get i) f = .ok (s', after) ∧ le s' w.record ∧
    (∀ j ∈ m.successors i, w.Received j after) ∧
    ∀ h ∈ m.handlersCovering i, ∃ t entry, I.handlerEntry t f = .ok entry ∧
      w.Received h.target entry

theorem Settled.later (hI : I.Accumulates le) {w w' : Worklist V S m.code.length}
    {i : Fin m.code.length} {f : Frame V} (h : Settled I m le w i f) (hlater : Later w w')
    (hrecord : le w.record w'.record) : Settled I m le w' i f := by
  obtain ⟨s, s', after, hexecute, hle, hsuccessors, hhandlers⟩ := h
  refine ⟨s, s', after, hexecute, hI.trans hle hrecord, ?_, ?_⟩
  · intro j hj
    exact (hsuccessors j hj).later hlater
  · intro handler hmem
    obtain ⟨t, entry, hentry, hreceived⟩ := hhandlers handler hmem
    exact ⟨t, entry, hentry, hreceived.later hlater⟩

/-- Every place with a frame is queued or settled. -/
def Stable (I : Interpreter V S) (m : Method) (le : S → S → Prop)
    (w : Worklist V S m.code.length) : Prop :=
  ∀ i f, w.frames.get i = some f → i ∈ w.queue ∨ Settled I m le w i f

/-- A place is taken off the queue and settled. Then every place with a frame is queued or settled
again: one that is not queued has not changed. -/
theorem Stable.advance (hI : I.Accumulates le) {w w' : Worklist V S m.code.length}
    {i : Fin m.code.length} {rest : List (Fin m.code.length)} {steps : Nat}
    (h : Stable I m le w) (hqueue : ∀ k ∈ w.queue, k ≠ i → k ∈ rest)
    (hlater : Later { w with queue := rest, steps := steps } w')
    (hrecord : le w.record w'.record)
    (hsettled : ∀ f, w.frames.get i = some f → Settled I m le w' i f) : Stable I m le w' := by
  intro k f hk
  by_cases hqueued : k ∈ w'.queue
  · exact .inl hqueued
  · right
    -- an unqueued place still has the frame it had when the visit began
    have hsame : w'.frames.get k = w.frames.get k := by
      by_contra hne
      exact hqueued (hlater.changed k hne)
    have hk' : w.frames.get k = some f := hsame.symm.trans hk
    by_cases hki : k = i
    · exact hki ▸ hsettled f (hki ▸ hk')
    · rcases h k f hk' with hold | hold
      · exact absurd (hlater.queue k (hqueue k hold hki)) hqueued
      · obtain ⟨s, s', after, hexecute, hle, hsuccessors, hhandlers⟩ := hold
        have hold' : Settled I m le { w with queue := rest, steps := steps } k f :=
          ⟨s, s', after, hexecute, hle, hsuccessors, hhandlers⟩
        exact hold'.later hI hlater hrecord

/-- A place that is visited is settled unless its own frame changed, and then it is queued. -/
theorem visit_stable (hI : I.Accumulates le) {w w' : Worklist V S m.code.length}
    {i : Fin m.code.length} {rest : List (Fin m.code.length)} (h : Stable I m le w)
    (hq : w.queue = i :: rest) (hok : visit I m (w.dequeued rest) i = .ok w') :
    Stable I m le w' := by
  have hqueue : ∀ k ∈ w.queue, k ≠ i → k ∈ (w.dequeued rest).queue := by
    intro k hk hki
    rw [hq] at hk
    exact (List.mem_cons.1 hk).resolve_left hki
  cases hbefore : w.frames.get i with
  | none =>
    rw [visit_of_none (w := w.dequeued rest) hbefore] at hok
    -- nothing happens at a place without a frame, and it need not be settled
    obtain rfl : w.dequeued rest = w' := Except.ok.inj hok
    refine h.advance hI hqueue (.refl _) (hI.refl _) ?_
    intro f hf
    cases hbefore.symm.trans hf
  | some before =>
    obtain ⟨hlater, after, hexecute, hsuccessors, hhandlers⟩ :=
      visit_spec (w := w.dequeued rest) hbefore hok
    refine h.advance hI hqueue hlater (hI.execute hexecute) ?_
    intro f hf
    obtain rfl : before = f := Option.some.inj (hbefore.symm.trans hf)
    refine ⟨w.record, w'.record, after, hexecute, hI.refl _, hsuccessors, ?_⟩
    intro handler hmem
    obtain ⟨entry, hentry, hreceived⟩ := hhandlers handler hmem
    exact ⟨w.record, entry, hentry, hreceived⟩

/-- From a stable state the end is a state where every place with a frame is settled. -/
theorem ends_settled (hI : I.Accumulates le) {w last : Worklist V S m.code.length}
    (h : Stable I m le w) (hends : Ends I m w (.ok last)) {i : Fin m.code.length} {f : Frame V}
    (hf : last.frames.get i = some f) : Settled I m le last i f := by
  obtain ⟨hstable, hempty⟩ := ends_induction (P := Stable I m le)
    (fun w i rest w' hw hq hvisit _ => visit_stable hI hw hq hvisit) h hends
  rcases hstable i f hf with hqueued | hsettled
  · rw [hempty] at hqueued
    cases hqueued
  · exact hsettled

/-- On the way to the end the record only grows. -/
theorem ends_record_le (hI : I.Accumulates le) {w last : Worklist V S m.code.length}
    (hends : Ends I m w (.ok last)) : le w.record last.record := by
  refine (ends_induction (P := fun v => le w.record v.record) ?_ (hI.refl _) hends).1
  intro v i rest v' hv hq hvisit _
  cases hbefore : v.frames.get i with
  | none =>
    rw [visit_of_none (w := v.dequeued rest) hbefore] at hvisit
    obtain rfl : v.dequeued rest = v' := Except.ok.inj hvisit
    exact hv
  | some before =>
    obtain ⟨-, after, hexecute, -, -⟩ :=
      visit_spec (w := v.dequeued rest) hbefore hvisit
    exact hI.trans hv (hI.execute hexecute)

/-- A place that has a frame keeps one, which only grows. -/
theorem ends_extends {w last : Worklist V S m.code.length} (hends : Ends I m w (.ok last))
    {k : Fin m.code.length} {f : Frame V} (hf : w.frames.get k = some f) :
    ∃ g, last.frames.get k = some g ∧ g.Extends f := by
  refine (ends_induction (P := fun v => ∃ g, v.frames.get k = some g ∧ g.Extends f) ?_
    ⟨f, hf, .refl f⟩ hends).1
  rintro v i rest v' ⟨g, hg, hgrown⟩ hq hvisit _
  obtain ⟨g', hg', hgrown'⟩ := (visit_later hvisit).frames k g hg
  exact ⟨g', hg', hgrown'.trans hgrown⟩

/-! ## Properties of all frames -/

/-- Executions and merges keep a property of frames and one of records. Executions whose record
is not contained in `last` are left out of account. -/
structure Kept (I : Interpreter V S) (m : Method) (le : S → S → Prop) (last : S)
    (P : Nat → Frame V → Prop) (Q : S → Prop) : Prop where
  execute : ∀ {i instr s s' f f'}, m.code[i]? = some instr → P i f → Q s →
    I.execute s i instr f = .ok (s', f') → le s' last → Q s' ∧ ∀ j ∈ m.successors i, P j f'
  handler : ∀ {i h s f entry}, P i f → Q s → h ∈ m.handlersCovering i →
    I.handlerEntry s f = .ok entry → P h.target entry
  merge : MergeClosed P

/-- What executions and merges keep holds throughout. -/
theorem ends_frames (hI : I.Accumulates le) {P : Nat → Frame V → Prop} {Q : S → Prop}
    {w last : Worklist V S m.code.length} (hkept : Kept I m le last.record P Q)
    (hP : w.AllFrames P) (hQ : Q w.record) (hends : Ends I m w (.ok last)) :
    last.AllFrames P ∧ Q last.record := by
  refine (ends_induction (P := fun v => v.AllFrames P ∧ Q v.record) ?_ ⟨hP, hQ⟩ hends).1
  intro v i rest v' ⟨hv, hrecord⟩ hq hvisit hrest
  cases hbefore : v.frames.get i with
  | none =>
    rw [visit_of_none (w := v.dequeued rest) hbefore] at hvisit
    obtain rfl : v.dequeued rest = v' := Except.ok.inj hvisit
    exact ⟨hv, hrecord⟩
  | some before =>
    obtain ⟨-, after, hexecute, -, -⟩ := visit_spec (w := v.dequeued rest) hbefore hvisit
    have hcode : m.code[(i : Nat)]? = some (m.code.get i) := List.getElem?_eq_getElem i.isLt
    have hbeforeP : P i before := hv i before hbefore
    have hle : le v'.record last.record := ends_record_le hI hrest
    -- the record only grows from here on, so this execution is not left out of account
    have hkept' := hkept.execute hcode hbeforeP hrecord hexecute hle
    refine ⟨?_, hkept'.1⟩
    refine allFrames_visit (w := v.dequeued rest) hkept.merge hbefore hv ?_ ?_ hvisit
    · intro handler hmem entry hentry
      exact hkept.handler hbeforeP hrecord hmem hentry
    · intro after' hexecute' j hj
      exact (hkept.execute hcode hbeforeP hrecord hexecute' hle).2 j hj

end Worklist

/-! ## The analysis of a method -/

open Worklist

/-- The frame before an instruction has taken in a frame that reaches it. -/
def Analysis.Received (a : Analysis V S) (j : Nat) (f : Frame V) : Prop :=
  ∃ g, a.frame? j = some g ∧ g.Absorbs f

omit [JoinSemilattice V] [DecidableEq V] in
theorem frame?_eq_some {n : Nat} (w : Worklist V S n) {i : Nat} {f : Frame V} :
    (⟨w.frames.toList, w.record, w.steps⟩ : Analysis V S).frame? i = some f ↔
      ∃ hi : i < n, w.frames[i] = some f := by
  unfold Analysis.frame?
  by_cases hi : i < n
  · have hlen : i < w.frames.toList.length := by simpa using hi
    rw [List.getElem?_eq_getElem hlen, Option.join_some, Vector.getElem_toList]
    exact ⟨fun h => ⟨hi, h⟩, fun ⟨_, h⟩ => h⟩
  · have hlen : ¬i < w.frames.toList.length := by simpa using hi
    rw [List.getElem?_eq_none (Nat.le_of_not_lt hlen)]
    constructor
    · intro h
      cases h
    · intro ⟨hi', _⟩
      exact absurd hi' hi

omit [JoinSemilattice V] [DecidableEq V] in
theorem frame?_get {n : Nat} (w : Worklist V S n) (k : Fin n) :
    (⟨w.frames.toList, w.record, w.steps⟩ : Analysis V S).frame? k = w.frames.get k := by
  apply Option.ext
  intro f
  rw [frame?_eq_some]
  exact ⟨fun ⟨_, h⟩ => h, fun h => ⟨k.isLt, h⟩⟩

omit [JoinSemilattice V] [DecidableEq V] in
theorem frame?_of_le {n : Nat} (w : Worklist V S n) {i : Nat} (h : n ≤ i) :
    (⟨w.frames.toList, w.record, w.steps⟩ : Analysis V S).frame? i = none := by
  rw [Option.eq_none_iff_forall_ne_some]
  intro f hf
  obtain ⟨hi, -⟩ := (frame?_eq_some w).1 hf
  omega

/-- The analysis of a method ends like this: at once, if there is no instruction or something is
wrong with the declarations, and otherwise as visiting from the first instruction on ends. -/
inductive Analyzes (I : Interpreter V S) (s : S) (m : Method) :
    Except FlowError (Analysis V S) → Prop
  | empty (h : ¬0 < m.code.length) : Analyzes I s m (.error .emptyMethod)
  | faulty {e : FlowError} (hne : 0 < m.code.length) (h : declarationFault? m = some e) :
      Analyzes I s m (.error e)
  | failed {e : FlowError} (hne : 0 < m.code.length) (hfault : declarationFault? m = none)
      (h : Ends I m (initial I s m hne) (.error e)) : Analyzes I s m (.error e)
  | done {w : Worklist V S m.code.length} (hne : 0 < m.code.length)
      (hfault : declarationFault? m = none) (h : Ends I m (initial I s m hne) (.ok w)) :
      Analyzes I s m (.ok ⟨w.frames.toList, w.record, w.steps⟩)

theorem analyzes_ok_iff {s : S} {a : Analysis V S} :
    Analyzes I s m (.ok a) ↔ ∃ (hne : 0 < m.code.length) (w : Worklist V S m.code.length),
      declarationFault? m = none ∧ Ends I m (initial I s m hne) (.ok w) ∧
        a = ⟨w.frames.toList, w.record, w.steps⟩ := by
  constructor
  · intro h
    cases h with
    | done hne hfault h => exact ⟨hne, _, hfault, h, rfl⟩
  · rintro ⟨hne, w, hfault, h, rfl⟩
    exact .done hne hfault h

section Finished

variable {s : S} {a : Analysis V S}

omit [JoinSemilattice V] [DecidableEq V] in
theorem frames_initial_zero (s : S) (hne : 0 < m.code.length) :
    (initial I s m hne).frames[0] =
      some (Frame.new m.maxLocals m.maxStack (I.newValue s)) := by
  unfold initial
  exact Vector.getElem_set_self _

omit [JoinSemilattice V] [DecidableEq V] in
theorem frames_initial_ne (s : S) (hne : 0 < m.code.length) {k : Fin m.code.length}
    (h : (k : Nat) ≠ 0) : (initial I s m hne).frames.get k = none := by
  unfold initial
  exact (Vector.getElem_set_ne hne k.isLt h.symm).trans (Vector.getElem_replicate k.isLt)

omit [JoinSemilattice V] [DecidableEq V] in
/-- At the start there is only the entry frame. -/
theorem allFrames_initial {P : Nat → Frame V → Prop} (hne : 0 < m.code.length)
    (hP : P 0 (Frame.new m.maxLocals m.maxStack (I.newValue s))) :
    (initial I s m hne).AllFrames P := by
  intro k g hg
  by_cases hk : (k : Nat) = 0
  · obtain rfl : k = ⟨0, hne⟩ := Fin.ext hk
    obtain rfl := Option.some.inj ((frames_initial_zero s hne).symm.trans hg)
    exact hP
  · rw [frames_initial_ne s hne hk] at hg
    cases hg

/-- At the start the only place with a frame is queued. -/
theorem initial_stable (s : S) (hne : 0 < m.code.length) :
    Stable I m le (initial I s m hne) := by
  intro k g hg
  by_cases hk : (k : Nat) = 0
  · left
    rw [show k = ⟨0, hne⟩ from Fin.ext hk]
    exact List.mem_singleton.2 rfl
  · rw [frames_initial_ne s hne hk] at hg
    cases hg

namespace Analyzes

/-- The frame of the first instruction has grown from the entry frame. -/
theorem entry (h : Analyzes I s m (.ok a)) : ∃ g, a.frame? 0 = some g ∧
    g.Extends (Frame.new m.maxLocals m.maxStack (I.newValue s)) := by
  obtain ⟨hne, w, -, hends, rfl⟩ := analyzes_ok_iff.1 h
  obtain ⟨g, hg, hgrown⟩ := ends_extends hends (k := ⟨0, hne⟩) (frames_initial_zero s hne)
  exact ⟨g, (frame?_eq_some w).2 ⟨hne, hg⟩, hgrown⟩

/-- Nothing is left to do at an instruction that has a frame. -/
theorem settled (h : Analyzes I s m (.ok a)) (hI : I.Accumulates le) {i : Nat}
    {f : Frame V} (hf : a.frame? i = some f) :
    ∃ instr t t' after, m.code[i]? = some instr ∧ I.execute t i instr f = .ok (t', after) ∧
      le t' a.record ∧ (∀ j ∈ m.successors i, a.Received j after) ∧
      ∀ h ∈ m.handlersCovering i, ∃ t entry, I.handlerEntry t f = .ok entry ∧
        a.Received h.target entry := by
  obtain ⟨hne, w, -, hends, rfl⟩ := analyzes_ok_iff.1 h
  obtain ⟨hi, hfi⟩ := (frame?_eq_some w).1 hf
  have hreceived : ∀ j g, w.Received j g →
      (⟨w.frames.toList, w.record, w.steps⟩ : Analysis V S).Received j g := by
    rintro j g ⟨hj, k, hk, habsorbs⟩
    exact ⟨k, (frame?_eq_some w).2 ⟨hj, hk⟩, habsorbs⟩
  obtain ⟨t, t', after, hexecute, hle, hsuccessors, hhandlers⟩ :=
    ends_settled hI (initial_stable s hne) hends (i := ⟨i, hi⟩) hfi
  refine ⟨_, t, t', after, List.getElem?_eq_getElem hi, hexecute, hle, ?_, ?_⟩
  · intro j hj
    exact hreceived j after (hsuccessors j hj)
  · intro handler hmem
    obtain ⟨u, entry, hentry, hentered⟩ := hhandlers handler hmem
    exact ⟨u, entry, hentry, hreceived _ _ hentered⟩

/-- What the entry frame has, and executions and merges keep, every frame has. -/
theorem frames (h : Analyzes I s m (.ok a)) (hI : I.Accumulates le)
    {P : Nat → Frame V → Prop} {Q : S → Prop} (hkept : Kept I m le a.record P Q)
    (hP : P 0 (Frame.new m.maxLocals m.maxStack (I.newValue s))) (hQ : Q s) :
    (∀ i f, a.frame? i = some f → P i f) ∧ Q a.record := by
  obtain ⟨hne, w, -, hends, rfl⟩ := analyzes_ok_iff.1 h
  -- the first instruction is the only one with a frame, so the property holds at the start
  obtain ⟨hall, hrecord⟩ := ends_frames hI hkept (allFrames_initial hne hP) hQ hends
  refine ⟨?_, hrecord⟩
  intro i f hf
  obtain ⟨hi, hfi⟩ := (frame?_eq_some w).1 hf
  exact hall ⟨i, hi⟩ f hfi

end Analyzes

/-- That an analysis fails can be computed by counting visits. -/
theorem analyzes_error_of_runFor (visits : Nat) {e : FlowError} (hne : 0 < m.code.length)
    (hfault : declarationFault? m = none)
    (h : (runFor I m visits (initial I s m hne)).map (Except.map (·.record)) =
      some (.error e)) : Analyzes I s m (.error e) := by
  obtain ⟨outcome, houtcome, hfailed⟩ := Option.map_eq_some_iff.1 h
  cases outcome with
  | error e' =>
    obtain rfl : e' = e := Except.error.inj hfailed
    exact .failed hne hfault (ends_of_runFor houtcome)
  | ok w => cases hfailed

end Finished
end Join

/-! ## Values of finite height -/

section FiniteHeight

open Worklist

variable [FiniteHeight V] [DecidableEq V] {I : Interpreter V S} {m : Method} {s : S}

/-- Where values have finite height every analysis ends, and `analyze` computes its end. -/
theorem analyzes_iff {outcome : Except FlowError (Analysis V S)} :
    Analyzes I s m outcome ↔ analyze I s m = outcome := by
  unfold analyze
  constructor
  · intro h
    cases h with
    | empty hne => exact dif_neg hne
    | faulty hne hfault => rw [dif_pos hne, hfault]
    | failed hne hfault hends =>
      rw [dif_pos hne, hfault]
      simp only [run_eq_iff.2 hends]
      rfl
    | done hne hfault hends =>
      rw [dif_pos hne, hfault]
      simp only [run_eq_iff.2 hends]
      rfl
  · rintro rfl
    by_cases hne : 0 < m.code.length
    · rw [dif_pos hne]
      cases hfault : declarationFault? m with
      | some e => exact .faulty hne hfault
      | none =>
        have hends := ends_run (I := I) (initial I s m hne)
        cases hrun : run I m (initial I s m hne) with
        | error e => exact .failed hne hfault (hrun ▸ hends)
        | ok w => exact .done hne hfault (hrun ▸ hends)
    · rw [dif_neg hne]
      exact .empty hne

/-- Whatever is read off an analysis that ends can be computed by counting visits. -/
theorem analyze_view_of_runFor {α : Type} (view : Analysis V S → α) (visits : Nat) (x : α)
    (hne : 0 < m.code.length) (hfault : declarationFault? m = none)
    (h : (runFor I m visits (initial I s m hne)).map
      (Except.map fun w => view ⟨w.frames.toList, w.record, w.steps⟩) = some (.ok x)) :
    ∃ a, analyze I s m = .ok a ∧ view a = x := by
  obtain ⟨outcome, houtcome, hview⟩ := Option.map_eq_some_iff.1 h
  cases outcome with
  | error e => cases hview
  | ok w =>
    exact ⟨_, analyzes_iff.1 (.done hne hfault (ends_of_runFor houtcome)), Except.ok.inj hview⟩

/-- In particular its record can be. -/
theorem analyze_of_runFor (visits : Nat) (record : S) (hne : 0 < m.code.length)
    (hfault : declarationFault? m = none)
    (h : (runFor I m visits (initial I s m hne)).map (Except.map (·.record)) =
      some (.ok record)) : ∃ a, analyze I s m = .ok a ∧ a.record = record :=
  analyze_view_of_runFor Analysis.record visits record hne hfault h

end FiniteHeight
end PoolLint.Flow

import Mathlib.Logic.Relation
import PoolLint.Proofs.Flow.Stability

/-!
# The worklist loop in small steps

A run of the worklist is told visit by visit (`Worklist.Ends`). Here it is told action by action:
take a place off the queue, enter one handler, execute the instruction, enter one successor. The
points that a run passes between two actions are those of `Point`; they keep account of the
instructions that were executed, and of the frame that a visit has in hand. An action that fails
leads nowhere.

Every run passes through such points (`Analyzes.passes`), so that what each action keeps holds
throughout, in the middle of a visit as well as at the end (`Point.Passes.sound`).
-/

namespace PoolLint.Flow

open PoolLint.Bytecode

variable {V S : Type} {n : Nat}

/-- What a run is doing: nothing between two visits, else entering the handlers of an instruction
that are still left, with the frame before it, or its successors, with the frame after it. -/
inductive Stage (V : Type) (n : Nat) where
  | idle
  | entering (i : Fin n) (before : Frame V) (handlers : List Handler)
  | leaving (i : Fin n) (after : Frame V) (successors : List Nat)

/-- The frame in hand. -/
def Stage.frame? : Stage V n → Option (Frame V)
  | idle => none
  | entering _ before _ => some before
  | leaving _ after _ => some after

/-- The instruction that is visited. -/
def Stage.visited? : Stage V n → Option Nat
  | idle => none
  | entering i _ _ => some i
  | leaving i _ _ => some i

/-- A point of a run, with the instructions that were executed until then, in that order. -/
structure Point (V S : Type) (n : Nat) where
  executed : List Nat
  stage : Stage V n
  state : Worklist V S n

namespace Point

open Worklist

/-- The frame is stored at this point, or in hand. -/
def Has (c : Point V S n) (f : Frame V) : Prop :=
  (∃ k, c.state.frames.get k = some f) ∨ c.stage.frame? = some f

/-- The first point of a run. -/
def start (I : Interpreter V S) (s : S) (m : Method) (hne : 0 < m.code.length) :
    Point V S m.code.length :=
  ⟨[], .idle, initial I s m hne⟩

section Steps

variable [JoinSemilattice V] [DecidableEq V] {I : Interpreter V S} {m : Method}

/-- One action. -/
inductive Step (I : Interpreter V S) (m : Method) :
    Point V S m.code.length → Point V S m.code.length → Prop
  | pass {executed : List Nat} {w : Worklist V S m.code.length} {i : Fin m.code.length}
      {rest : List (Fin m.code.length)} (hq : w.queue = i :: rest)
      (hnone : w.frames.get i = none) :
      Step I m ⟨executed, .idle, w⟩ ⟨executed, .idle, w.dequeued rest⟩
  | take {executed : List Nat} {w : Worklist V S m.code.length} {i : Fin m.code.length}
      {rest : List (Fin m.code.length)} {before : Frame V} (hq : w.queue = i :: rest)
      (hbefore : w.frames.get i = some before) :
      Step I m ⟨executed, .idle, w⟩
        ⟨executed, .entering i before (m.handlersCovering i), w.dequeued rest⟩
  | enter {executed : List Nat} {w w' : Worklist V S m.code.length} {i : Fin m.code.length}
      {before : Frame V} {handler : Handler} {handlers : List Handler}
      (hok : enterHandler I before w handler = .ok w') :
      Step I m ⟨executed, .entering i before (handler :: handlers), w⟩
        ⟨executed, .entering i before handlers, w'⟩
  | execute {executed : List Nat} {w : Worklist V S m.code.length} {i : Fin m.code.length}
      {before after : Frame V} {record : S}
      (hok : I.execute w.record i (m.code.get i) before = .ok (record, after)) :
      Step I m ⟨executed, .entering i before [], w⟩
        ⟨executed ++ [(i : Nat)], .leaving i after (m.successors i), { w with record := record }⟩
  | leave {executed : List Nat} {w w' : Worklist V S m.code.length} {i : Fin m.code.length}
      {after : Frame V} {j : Nat} {successors : List Nat}
      (hok : enterSuccessor i after w j = .ok w') :
      Step I m ⟨executed, .leaving i after (j :: successors), w⟩
        ⟨executed, .leaving i after successors, w'⟩
  | finish {executed : List Nat} {w : Worklist V S m.code.length} {i : Fin m.code.length}
      {after : Frame V} : Step I m ⟨executed, .leaving i after [], w⟩ ⟨executed, .idle, w⟩

/-- A run that is at the first point passes the second one, then or later. -/
def Passes (I : Interpreter V S) (m : Method) (c c' : Point V S m.code.length) : Prop :=
  Relation.ReflTransGen (Step I m) c c'

/-! ## Runs go in such steps -/

theorem passes_handlers {executed : List Nat} {i : Fin m.code.length} {before : Frame V}
    {handlers : List Handler} {w w' : Worklist V S m.code.length}
    (h : handlers.foldlM (enterHandler I before) w = .ok w') :
    Passes I m ⟨executed, .entering i before handlers, w⟩
      ⟨executed, .entering i before [], w'⟩ := by
  induction handlers generalizing w with
  | nil =>
    obtain rfl : w = w' := Except.ok.inj h
    exact .refl
  | cons handler handlers ih =>
    rw [List.foldlM_cons] at h
    obtain ⟨next, hstep, hrest⟩ := bind_eq_ok.1 h
    exact .head (.enter hstep) (ih hrest)

theorem passes_successors {executed : List Nat} {i : Fin m.code.length} {after : Frame V}
    {successors : List Nat} {w w' : Worklist V S m.code.length}
    (h : successors.foldlM (enterSuccessor i after) w = .ok w') :
    Passes I m ⟨executed, .leaving i after successors, w⟩ ⟨executed, .leaving i after [], w'⟩ := by
  induction successors generalizing w with
  | nil =>
    obtain rfl : w = w' := Except.ok.inj h
    exact .refl
  | cons j successors ih =>
    rw [List.foldlM_cons] at h
    obtain ⟨next, hstep, hrest⟩ := bind_eq_ok.1 h
    exact .head (.leave hstep) (ih hrest)

/-- A visit leads from one point between two visits to the next. -/
theorem passes_visit {w w' : Worklist V S m.code.length} {i : Fin m.code.length}
    {rest : List (Fin m.code.length)} (executed : List Nat) (hq : w.queue = i :: rest)
    (hvisit : visit I m (w.dequeued rest) i = .ok w') :
    ∃ executed', Passes I m ⟨executed, .idle, w⟩ ⟨executed', .idle, w'⟩ := by
  cases hbefore : w.frames.get i with
  | none =>
    rw [visit_of_none (w := w.dequeued rest) hbefore] at hvisit
    obtain rfl : w.dequeued rest = w' := Except.ok.inj hvisit
    exact ⟨executed, .single (.pass hq hbefore)⟩
  | some before =>
    obtain ⟨w₁, record, after, hhandlers, hexecute, hsuccessors⟩ :=
      (visit_eq_ok (w := w.dequeued rest) hbefore).1 hvisit
    have hentered : Passes I m ⟨executed, .idle, w⟩ ⟨executed, .entering i before [], w₁⟩ :=
      .head (.take hq hbefore) (passes_handlers hhandlers)
    have hexecuted := hentered.tail (.execute hexecute)
    exact ⟨_, (hexecuted.trans (passes_successors hsuccessors)).tail .finish⟩

/-- A run that ends with a state passes a point between two visits where it has this state, and
its queue is empty there. -/
theorem passes_of_ends {w last : Worklist V S m.code.length} (h : Ends I m w (.ok last)) :
    ∃ executed, Passes I m ⟨[], .idle, w⟩ ⟨executed, .idle, last⟩ ∧ last.queue = [] := by
  have hvisited : ∀ v i rest v', (∃ executed, Passes I m ⟨[], .idle, w⟩ ⟨executed, .idle, v⟩) →
      v.queue = i :: rest → visit I m (v.dequeued rest) i = .ok v' → Ends I m v' (.ok last) →
        ∃ executed, Passes I m ⟨[], .idle, w⟩ ⟨executed, .idle, v'⟩ := by
    rintro v i rest v' ⟨executed, hpasses⟩ hq hvisit -
    obtain ⟨executed', hvisited⟩ := passes_visit executed hq hvisit
    exact ⟨executed', hpasses.trans hvisited⟩
  obtain ⟨⟨executed, hpasses⟩, hempty⟩ := ends_induction hvisited ⟨[], .refl⟩ h
  exact ⟨executed, hpasses, hempty⟩

/-! ## What every action keeps -/

/-- Executions and merges keep a property of frames and one of records, which may both depend on
what was executed until then. -/
structure Carried (I : Interpreter V S) (m : Method) (P : List Nat → S → Frame V → Prop)
    (Q : List Nat → S → Prop) : Prop where
  execute : ∀ {executed i instr s s' f f'}, m.code[i]? = some instr → P executed s f →
    Q executed s → I.execute s i instr f = .ok (s', f') →
      P (executed ++ [i]) s' f' ∧ Q (executed ++ [i]) s'
  persists : ∀ {executed i instr s s' f f' g}, I.execute s i instr f = .ok (s', f') →
    P executed s g → P (executed ++ [i]) s' g
  handler : ∀ {executed s f entry}, P executed s f → I.handlerEntry s f = .ok entry →
    P executed s entry
  merge : ∀ {executed s f g}, P executed s f → P executed s g →
    f.stack.length = g.stack.length → P executed s (f.merged g)

/-- All frames and the record have these properties. -/
structure Sound (P : List Nat → S → Frame V → Prop) (Q : List Nat → S → Prop)
    (c : Point V S n) : Prop where
  frames : ∀ f, c.Has f → P c.executed c.state.record f
  record : Q c.executed c.state.record

variable {P : List Nat → S → Frame V → Prop} {Q : List Nat → S → Prop}

/-- One action keeps what is kept by executions and merges. -/
theorem Step.sound (hkept : Carried I m P Q) {c c' : Point V S m.code.length}
    (hstep : Step I m c c') (h : c.Sound P Q) : c'.Sound P Q := by
  obtain ⟨hframes, hrecord⟩ := h
  have hmerge : ∀ executed s, MergeClosed fun _ f => P executed s f :=
    fun _ _ _ _ _ hf hg hheight => hkept.merge hf hg hheight
  cases hstep with
  | pass => exact ⟨hframes, hrecord⟩
  | take hq hbefore =>
    refine ⟨?_, hrecord⟩
    rintro f (hstored | hhand)
    · exact hframes f (.inl hstored)
    · obtain rfl := Option.some.inj hhand
      exact hframes _ (.inl ⟨_, hbefore⟩)
  | @enter executed w w' i before handler handlers hok =>
    have hsame : w'.record = w.record := (enterHandler_spec hok).2.1
    have hhand : P executed w.record before := hframes before (.inr rfl)
    have hstored : w'.AllFrames fun _ f => P executed w.record f :=
      allFrames_enterHandler (hmerge _ _) (fun k f hf => hframes f (.inl ⟨k, hf⟩))
        (fun _ => hkept.handler hhand) hok
    refine ⟨?_, hsame ▸ hrecord⟩
    show ∀ f, _ → P executed w'.record f
    rw [hsame]
    rintro f (⟨k, hf⟩ | hf)
    · exact hstored k f hf
    · exact hframes f (.inr hf)
  | @execute executed w i before after record hok =>
    have hcode : m.code[(i : Nat)]? = some (m.code.get i) := List.getElem?_eq_getElem i.isLt
    obtain ⟨hafter, hrecord'⟩ :=
      hkept.execute hcode (hframes before (.inr rfl)) hrecord hok
    refine ⟨?_, hrecord'⟩
    rintro f (hstored | hhand)
    · exact hkept.persists hok (hframes f (.inl hstored))
    · obtain rfl := Option.some.inj hhand
      exact hafter
  | @leave executed w w' i after j successors hok =>
    have hsame : w'.record = w.record := (enterSuccessor_spec hok).2.1
    have hstored : w'.AllFrames fun _ f => P executed w.record f :=
      allFrames_enterSuccessor (hmerge _ _) (fun k f hf => hframes f (.inl ⟨k, hf⟩))
        (hframes after (.inr rfl)) hok
    refine ⟨?_, hsame ▸ hrecord⟩
    show ∀ f, _ → P executed w'.record f
    rw [hsame]
    rintro f (⟨k, hf⟩ | hf)
    · exact hstored k f hf
    · exact hframes f (.inr hf)
  | finish =>
    refine ⟨?_, hrecord⟩
    rintro f (hstored | hhand)
    · exact hframes f (.inl hstored)
    · cases hhand

/-- What executions and merges keep holds at every point that a run passes. -/
theorem Passes.sound (hkept : Carried I m P Q) {c c' : Point V S m.code.length}
    (hpasses : Passes I m c c') (h : c.Sound P Q) : c'.Sound P Q := by
  induction hpasses with
  | refl => exact h
  | tail _ hstep ih => exact hstep.sound hkept ih

omit [JoinSemilattice V] [DecidableEq V] in
/-- At the start there is only the entry frame. -/
theorem sound_start {s : S} (hne : 0 < m.code.length)
    (hP : P [] s (Frame.new m.maxLocals m.maxStack (I.newValue s))) (hQ : Q [] s) :
    (start I s m hne).Sound P Q := by
  refine ⟨?_, hQ⟩
  rintro f (⟨k, hf⟩ | hhand)
  · exact allFrames_initial (P := fun _ f => P [] s f) hne hP k f hf
  · cases hhand

/-! ## What was executed has a frame -/

/-- Every instruction that was executed, or is visited, has a frame. -/
def Present (c : Point V S n) : Prop :=
  ∀ j, j ∈ c.executed ∨ c.stage.visited? = some j → ∃ (hj : j < n) (f : Frame V),
    c.state.frames[j] = some f

theorem Present.later {c c' : Point V S n} (h : c.Present) (hlater : Later c.state c'.state)
    (hplaces : ∀ j, j ∈ c'.executed ∨ c'.stage.visited? = some j →
      j ∈ c.executed ∨ c.stage.visited? = some j) : c'.Present := by
  intro j hj
  obtain ⟨hlt, f, hf⟩ := h j (hplaces j hj)
  obtain ⟨g, hg, -⟩ := hlater.frames ⟨j, hlt⟩ f hf
  exact ⟨hlt, g, hg⟩

theorem Step.present {c c' : Point V S m.code.length} (hstep : Step I m c c') (h : c.Present) :
    c'.Present := by
  cases hstep with
  | pass => exact h
  | @take executed w i rest before hq hbefore =>
    rintro j (hexecuted | hvisited)
    · exact h j (.inl hexecuted)
    · obtain rfl := Option.some.inj hvisited
      exact ⟨i.isLt, before, hbefore⟩
  | enter hok => exact h.later (enterHandler_spec hok).1 fun _ => id
  | @execute executed w i before after record hok =>
    have hlater := Later.refl w
    -- what is executed here is what was visited before
    refine h.later ⟨hlater.frames, hlater.queue, hlater.changed⟩ ?_
    rintro j (hexecuted | hvisited)
    · rcases List.mem_append.1 hexecuted with hbefore | hnow
      · exact .inl hbefore
      · exact .inr (congrArg some (List.mem_singleton.1 hnow).symm)
    · exact .inr hvisited
  | leave hok => exact h.later (enterSuccessor_spec hok).1 fun _ => id
  | finish =>
    refine h.later (.refl _) ?_
    rintro j (hexecuted | hvisited)
    · exact .inl hexecuted
    · cases hvisited

theorem Passes.present {c c' : Point V S m.code.length} (hpasses : Passes I m c c')
    (h : c.Present) : c'.Present := by
  induction hpasses with
  | refl => exact h
  | tail _ hstep ih => exact hstep.present ih

omit [JoinSemilattice V] [DecidableEq V] in
theorem present_start {s : S} (hne : 0 < m.code.length) : (start I s m hne).Present := by
  rintro j (hexecuted | hvisited)
  · cases hexecuted
  · cases hvisited

end Steps
end Point

/-- The run of an analysis that ends with a frame table passes a point where the queue is empty and
nothing is in hand; the table consists of the frames that are stored there. -/
theorem Analyzes.passes [JoinSemilattice V] [DecidableEq V] {I : Interpreter V S} {m : Method}
    {s : S} {a : Analysis V S} (h : Analyzes I s m (.ok a)) :
    ∃ hne executed w, Point.Passes I m (.start I s m hne) ⟨executed, .idle, w⟩ ∧ w.queue = [] ∧
      a = ⟨w.frames.toList, w.record, w.steps⟩ := by
  obtain ⟨hne, w, -, hends, rfl⟩ := analyzes_ok_iff.1 h
  obtain ⟨executed, hpasses, hempty⟩ := Point.passes_of_ends hends
  exact ⟨hne, executed, w, hpasses, hempty, rfl⟩

end PoolLint.Flow

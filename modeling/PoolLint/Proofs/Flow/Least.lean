import PoolLint.Flow.Taint
import PoolLint.Proofs.Flow.Schedule
import PoolLint.Proofs.Flow.Unlimited

/-!
# The table is the least solution of the flow equations

A table of frames solves the flow equations of a method if it is above the entry frame at the
first instruction, above the outcome of every instruction at its successors, and above the locals
before it, with one new value on the stack, at the handlers that cover it (`Solves`). A place
without a frame is at the bottom.

The table of a finished analysis is a solution. For interpreters whose results only depend on the
values that they are given, and grow with these, it is the least one (`analyze_least`): every
frame that is ever stored is below every solution, since a frame that is below the one of a
solution is led to frames that are below those of the solution. Nothing in this depends on the
order in which places are visited and edges are followed, so every order ends with this table.
-/

namespace PoolLint.Flow

open PoolLint.Bytecode

variable {V S : Type} {m : Method}

section Join

variable [JoinSemilattice V]

/-! ## Interpreters and solutions -/

/-- New values and results do not depend on the record, calls leave the frame alone, and the
result of a call grows with the arguments and with the values of the frame. A call that does not
read the frame either has one result for both frames, and then `monotone` only asks for growth
with the arguments. -/
structure Interpreter.WellBehaved (I : Interpreter V S) : Prop extends I.IgnoresRecord where
  leaves : ∀ s i call args f, (I.call s i call args f).2.2 = f
  monotone : ∀ s i call args args' f f', List.Forall₂ (fun b a => merge b a = b) args' args →
    f'.Above f → merge (I.call s i call args' f').2.1 (I.call s i call args f).2.1 =
      (I.call s i call args' f').2.1

/-- A table of frames solves the flow equations of a method as inequalities. It may leave places
without a frame, and nothing is asked of it there. -/
structure Solves (I : Interpreter V S) (s : S) (m : Method) (T : Nat → Option (Frame V)) :
    Prop where
  entry : ∃ f, T 0 = some f ∧ f.Above (Frame.new m.maxLocals m.maxStack (I.newValue s))
  successor : ∀ i f instr, T i = some f → m.code[i]? = some instr → ∀ j ∈ m.successors i,
    ∃ s' after g, I.execute s i instr f = .ok (s', after) ∧ T j = some g ∧ g.Above after
  handler : ∀ i f h, T i = some f → h ∈ m.handlersCovering i →
    ∃ g, T h.target = some g ∧ g.Above { f with stack := [I.newValue s] }

/-- The second table has a frame wherever the first one has, and it is above that one. -/
def TableLe (T U : Nat → Option (Frame V)) : Prop :=
  ∀ i f, T i = some f → ∃ g, U i = some g ∧ g.Above f

theorem Interpreter.WellBehaved.keepsShape {I : Interpreter V S} (hI : I.WellBehaved) :
    I.KeepsShape := by
  intro m s i call args f hf
  rw [hI.leaves]
  exact hf

/-! ## Frames below others -/

namespace Frame

variable {f g k : Frame V}

/-- The first is a frame of the method, and each of its values is below the one of the second at
its place. -/
structure Below (m : Method) (f g : Frame V) : Prop where
  locals : List.Forall₂ (fun a b => merge b a = b) f.locals g.locals
  stack : List.Forall₂ (fun a b => merge b a = b) f.stack g.stack
  width : f.locals.length = m.maxLocals
  limit : f.maxStack = m.maxStack

theorem Below.above (h : f.Below m g) : g.Above f :=
  ⟨h.locals.flip, h.stack.flip⟩

theorem forall₂_below_trans {as bs cs : List V}
    (hab : List.Forall₂ (fun a b => merge b a = b) as bs)
    (hcb : List.Forall₂ (fun c b => merge c b = c) cs bs) :
    List.Forall₂ (fun a c => merge c a = c) as cs := by
  induction hab generalizing cs with
  | nil =>
    cases hcb
    exact .nil
  | cons hhead _ ih =>
    cases hcb with
    | cons hhead' htail' => exact .cons (merge_below_trans hhead hhead') (ih htail')

theorem Below.trans_above (h : f.Below m g) (habove : k.Above g) : f.Below m k :=
  ⟨forall₂_below_trans h.locals habove.locals, forall₂_below_trans h.stack habove.stack, h.width,
    h.limit⟩

theorem forall₂_below_mergeValues {as bs cs : List V}
    (has : List.Forall₂ (fun a c => merge c a = c) as cs)
    (hbs : List.Forall₂ (fun b c => merge c b = c) bs cs) :
    List.Forall₂ (fun a c => merge c a = c) (mergeValues as bs) cs := by
  induction has generalizing bs with
  | nil =>
    cases hbs
    exact .nil
  | cons hhead _ ih =>
    cases hbs with
    | cons hhead' htail' =>
      rw [mergeValues]
      exact .cons (merge_below_merge hhead hhead') (ih htail')

/-- What is above two frames is above the frame that they merge to. -/
theorem Below.merged (hf : f.Below m k) (hg : g.Below m k) : (f.merged g).Below m k := by
  refine ⟨forall₂_below_mergeValues hf.locals hg.locals,
    forall₂_below_mergeValues hf.stack hg.stack, ?_, hf.limit⟩
  rw [Frame.merged, length_mergeValues]
  exact hf.width

theorem Below.antisymm (h : f.Below m g) (h' : g.Below m f) : f = g :=
  h'.above.antisymm h.above (h.limit.trans h'.limit.symm)

/-- Absorption between frames of the method is a matter of their values. -/
theorem above_of_absorbs [DecidableEq V] (hg : g.SameShape m g) (hf : f.SameShape m f)
    (h : g.Absorbs f) : g.Above f := by
  obtain ⟨hheight, hlocals, hstack⟩ := absorbs_iff.1 h
  have hwidth : g.locals.length = f.locals.length := by rw [hg.width, hf.width]
  exact ⟨forall₂_of_mergeValues hwidth hlocals, forall₂_of_mergeValues hheight hstack⟩

end Frame

/-! ## Every stored frame is below every solution -/

variable {I : Interpreter V S} {s : S} {T : Nat → Option (Frame V)}

/-- The result of a call does not depend on the limit, since frames that differ in nothing else are
above each other. -/
theorem Interpreter.WellBehaved.callsUnlimited (hI : I.WellBehaved) : I.CallsUnlimited := by
  intro t i call args f
  have hself : ∀ vs : List V, List.Forall₂ (fun b a => merge b a = b) vs vs :=
    fun vs => List.forall₂_same.2 fun v _ => merge_self v
  have habove : f.unlimited.Above f := ⟨hself _, hself _⟩
  have hbelow : f.Above f.unlimited := ⟨hself _, hself _⟩
  refine ⟨?_, by rw [hI.leaves, hI.leaves]⟩
  exact merge_below_antisymm (hI.monotone t i call args args f.unlimited f (hself _) hbelow)
    (hI.monotone t i call args args f f.unlimited (hself _) habove)

/-- From below, an execution leads below, whatever the limit of the frame above. -/
theorem Interpreter.WellBehaved.execute_below (hI : I.WellBehaved) {t t' s' : S} {i : Nat}
    {instr : Instruction} {f f' g g' : Frame V} (h : f.Below m g)
    (hexecute : I.execute t i instr f = .ok (t', f'))
    (hexecute' : I.execute s i instr g = .ok (s', g')) : f'.Below m g' := by
  have hfresh : merge (I.fresh s i instr).2 (I.fresh t i instr).2 = (I.fresh s i instr).2 := by
    rw [hI.fresh t s, merge_self]
  -- without their limits, both are frames of the method without its limit
  let m' : Method := { m with maxStack := none }
  have hrelated : f.unlimited.Related m' (fun a b => merge b a = b) g.unlimited :=
    ⟨h.locals, h.stack, h.width, rfl, rfl⟩
  have hcall : ∀ call argCount, instr = .invoke call → call.argCount? = some argCount →
      Interpreter.CallsAlike m' I I (fun a b => merge b a = b) t s i call argCount f.unlimited
        g.unlimited := by
    intro call argCount _ _ args k args' k' _ _ hargs hk
    rw [hI.call t s]
    refine ⟨fun _ => hI.monotone s i call args args' k k' hargs.flip ?_, ?_⟩
    · exact ⟨hk.locals.flip, hk.stack.flip⟩
    · rw [hI.leaves, hI.leaves]
      exact hk
  have halike := Interpreter.execute_alike instr hfresh hcall hrelated
  obtain ⟨a, ha, hf'⟩ := Interpreter.execute_unlimited hI.callsUnlimited t i instr f _ hexecute
  obtain ⟨b, hb, hg'⟩ := Interpreter.execute_unlimited hI.callsUnlimited s i instr g _ hexecute'
  obtain ⟨b', hb', hab⟩ := halike.exists_ok ha
  obtain rfl : b = b' := Except.ok.inj (hb.symm.trans hb')
  have hleft : a.2 = f'.unlimited := hf'
  have hright : b.2 = g'.unlimited := hg'
  have hvalues : f'.unlimited.Related m' (fun a b => merge b a = b) g'.unlimited := by
    rw [← hleft, ← hright]
    exact hab
  have hself : f.SameShape m f := Frame.sameShape_of_length rfl rfl h.width h.limit h.limit
  obtain ⟨_, -, hshape⟩ := (Interpreter.execute_sameShape (s := t) (t := t) (i := i) hI.keepsShape
    hI.keepsShape instr hself).exists_ok hexecute
  exact ⟨hvalues.locals, hvalues.stack, hshape.width, hshape.limit⟩

/-- The table has a frame at the place that is above this one. -/
def BelowTable (m : Method) (T : Nat → Option (Frame V)) (i : Nat) (f : Frame V) : Prop :=
  ∃ g, T i = some g ∧ f.Below m g

theorem Solves.start (hT : Solves I s m T) :
    BelowTable m T 0 (Frame.new m.maxLocals m.maxStack (I.newValue s)) := by
  obtain ⟨f, hf, habove⟩ := hT.entry
  exact ⟨f, hf, habove.locals.flip, habove.stack.flip, List.length_replicate, rfl⟩

/-- Executions and merges lead from frames below a solution to such frames. -/
theorem Solves.kept (hI : I.WellBehaved) (hT : Solves I s m T) (last : S) :
    Worklist.Kept I m (fun _ _ => True) last (BelowTable m T) (fun _ => True) := by
  refine ⟨?_, ?_, ?_⟩
  · rintro i instr t t' f f' hcode ⟨g, hg, hfg⟩ - hexecute -
    refine ⟨trivial, ?_⟩
    intro j hj
    obtain ⟨s', g', k, hexecute', hk, habove⟩ := hT.successor i g instr hg hcode j hj
    exact ⟨k, hk, (hI.execute_below hfg hexecute hexecute').trans_above habove⟩
  · rintro i h t f entry ⟨g, hg, hfg⟩ - hmem hentry
    obtain rfl := Interpreter.handlerEntry_eq_ok hentry
    obtain ⟨k, hk, habove⟩ := hT.handler i g h hg hmem
    have hnew : merge (I.newValue s) (I.newValue t) = I.newValue s := by
      rw [hI.newValue t s, merge_self]
    have hbelow : ({ f with stack := [I.newValue t] } : Frame V).Below m
        { g with stack := [I.newValue s] } :=
      ⟨hfg.locals, .cons hnew .nil, hfg.width, hfg.limit⟩
    exact ⟨k, hk, hbelow.trans_above habove⟩
  · rintro i f g ⟨k, hk, hf⟩ ⟨k', hk', hg⟩ -
    obtain rfl := Option.some.inj (hk.symm.trans hk')
    exact ⟨k, hk, hf.merged hg⟩

/-! ## Runs of steps -/

variable [DecidableEq V]

namespace Worklist

open Relation (ReflTransGen)

variable {w w' : Worklist V S m.code.length}

/-- The table of frames that a state holds, and its record. -/
abbrev analysis {n : Nat} (w : Worklist V S n) : Analysis V S :=
  ⟨w.frames.toList, w.record, w.steps⟩

theorem allFrames_steps {P : Nat → Frame V → Prop} {last : S}
    (hkept : Kept I m (fun _ _ => True) last P fun _ => True) (h : w.AllFrames P)
    (hsteps : ReflTransGen (Step I m) w w') : w'.AllFrames P := by
  induction hsteps with
  | refl => exact h
  | tail _ hstep ih => exact allFrames_step hkept ih hstep

/-- What a run of steps from the start of the analysis of a method has established, if the stack
heights of the method are consistent. -/
structure Underway (I : Interpreter V S) (s : S) (m : Method) (height : Nat → Nat)
    (w : Worklist V S m.code.length) : Prop where
  placed : w.AllFrames (Placed m height)
  stable : Stable I m (fun _ _ => True) w
  entry : ∃ f, w.analysis.frame? 0 = some f ∧
    f.Extends (Frame.new m.maxLocals m.maxStack (I.newValue s))

theorem underway_initial {height : Nat → Nat} (hc : StackConsistent m height)
    (hne : 0 < m.code.length) : Underway I s m height (initial I s m hne) := by
  refine ⟨?_, initial_stable s hne, _, (frame?_eq_some _).2 ⟨hne, frames_initial_zero s hne⟩,
    .refl _⟩
  exact allFrames_initial hne ⟨.refl, (Frame.Sized.new _).of_eq hc.entry.symm⟩

theorem Underway.step (hI : I.KeepsShape) (hm : m.WellDeclared) {height : Nat → Nat}
    (hc : StackConsistent m height) (h : Underway I s m height w) (hstep : Step I m w w') :
    Underway I s m height w' := by
  refine ⟨?_, step_stable I.accumulates_true h.stable hstep, ?_⟩
  · obtain ⟨i, -, order, hperm, hok⟩ := hstep
    have hplaced : (w.taken i).AllFrames (Placed m height) := h.placed
    obtain ⟨v, hv, hplaced'⟩ := visitBy_ok (i := i) hI hm hc hplaced hperm
    obtain rfl := Except.ok.inj (hok.symm.trans hv)
    exact hplaced'
  · obtain ⟨f, hf, hgrown⟩ := h.entry
    obtain ⟨hne, hf'⟩ := (frame?_eq_some w).1 hf
    obtain ⟨i, hlater⟩ := step_later hstep
    obtain ⟨g, hg, hgrown'⟩ := hlater.frames ⟨0, hne⟩ f hf'
    exact ⟨g, (frame?_eq_some w').2 ⟨hne, hg⟩, hgrown'.trans hgrown⟩

/-- When nothing is queued any more, the table is a solution. -/
theorem Underway.solves (hI : I.WellBehaved) {height : Nat → Nat} (h : Underway I s m height w)
    (hempty : w.queue = []) : Solves I s m w.analysis.frame? := by
  have hsettled : ∀ i f, w.analysis.frame? i = some f →
      ∃ hi : i < m.code.length, Settled I m (fun _ _ => True) w ⟨i, hi⟩ f := by
    intro i f hf
    obtain ⟨hi, hfi⟩ := (frame?_eq_some w).1 hf
    rcases h.stable ⟨i, hi⟩ f hfi with hqueued | hsettled
    · simp [hempty] at hqueued
    · exact ⟨hi, hsettled⟩
  have hshape : ∀ i f, w.analysis.frame? i = some f → f.SameShape m f := by
    intro i f hf
    obtain ⟨hi, hfi⟩ := (frame?_eq_some w).1 hf
    exact (h.placed ⟨i, hi⟩ f hfi).2.sameShape
  have hreceived : ∀ j f, f.SameShape m f → w.Received j f →
      ∃ g, w.analysis.frame? j = some g ∧ g.Above f := by
    rintro j f hf ⟨hj, g, hg, habsorbs⟩
    have hgj := (frame?_eq_some w).2 ⟨hj, hg⟩
    exact ⟨g, hgj, Frame.above_of_absorbs (hshape j g hgj) hf habsorbs⟩
  refine ⟨?_, ?_, ?_⟩
  · obtain ⟨f, hf, hgrown⟩ := h.entry
    exact ⟨f, hf, hgrown.above⟩
  · intro i f instr hf hcode j hj
    obtain ⟨hi, t, t', after, hexecute, -, hsuccessors, -⟩ := hsettled i f hf
    obtain rfl : m.code.get ⟨i, hi⟩ = instr :=
      Option.some.inj ((List.getElem?_eq_getElem hi).symm.trans hcode)
    -- what was delivered is the outcome of this execution, whatever record it started from
    have halike := Interpreter.execute_equalFrames (t := t) (u := s) (i := i) (f := f)
      hI.toIgnoresRecord (m.code.get ⟨i, hi⟩)
    obtain ⟨⟨s', after'⟩, hexecute', hsame⟩ := halike.exists_ok hexecute
    obtain rfl : after = after' := hsame
    have hafter := Interpreter.execute_sameShape (s := t) (t := t) (i := i) hI.keepsShape
      hI.keepsShape (m.code.get ⟨i, hi⟩) (hshape i f hf)
    obtain ⟨_, -, hshape'⟩ := hafter.exists_ok hexecute
    obtain ⟨g, hg, habove⟩ := hreceived j after hshape'.left (hsuccessors j hj)
    exact ⟨s', after, g, hexecute', hg, habove⟩
  · intro i f handler hf hmem
    obtain ⟨hi, t, t', after, -, -, -, hhandlers⟩ := hsettled i f hf
    obtain ⟨u, entry, hentry, hentered⟩ := hhandlers handler hmem
    obtain rfl := Interpreter.handlerEntry_eq_ok hentry
    rw [hI.newValue u s] at hentered
    have hf' := hshape i f hf
    exact hreceived _ _ (Frame.sameShape_of_length rfl rfl hf'.width hf'.limit hf'.limit) hentered

end Worklist

/-! ## The least solution -/

open Worklist Relation

variable {a : Analysis V S}

omit [DecidableEq V] in
theorem tableLe_of_below {w : Worklist V S m.code.length} (h : w.AllFrames (BelowTable m T)) :
    TableLe w.analysis.frame? T := by
  intro i f hf
  obtain ⟨hi, hfi⟩ := (frame?_eq_some w).1 hf
  obtain ⟨g, hg, hbelow⟩ := h ⟨i, hi⟩ f hfi
  exact ⟨g, hg, hbelow.above⟩

/-- Every frame that is stored on the way is below every solution. -/
theorem steps_below (hI : I.WellBehaved) (hT : Solves I s m T) {hne : 0 < m.code.length}
    {w : Worklist V S m.code.length} (hsteps : ReflTransGen (Step I m) (initial I s m hne) w) :
    w.AllFrames (BelowTable m T) :=
  allFrames_steps (hT.kept hI s) (allFrames_initial hne hT.start) hsteps

omit [DecidableEq V] in
/-- Two states whose tables are below each other hold the same frames. -/
theorem frames_eq_of_below {w w' : Worklist V S m.code.length}
    (h : w.AllFrames (BelowTable m w'.analysis.frame?))
    (h' : w'.AllFrames (BelowTable m w.analysis.frame?)) : w.frames = w'.frames := by
  have hle : ∀ {v v' : Worklist V S m.code.length}, v.AllFrames (BelowTable m v'.analysis.frame?) →
      ∀ k f, v.frames.get k = some f → ∃ g, v'.frames.get k = some g ∧ f.Below m g := by
    intro v v' hv k f hf
    obtain ⟨g, hg, hbelow⟩ := hv k f hf
    obtain ⟨_, hg'⟩ := (frame?_eq_some v').1 hg
    exact ⟨g, hg', hbelow⟩
  have hsame : ∀ k, w.frames.get k = w'.frames.get k := by
    intro k
    apply Option.ext
    intro f
    constructor
    · intro hf
      obtain ⟨g, hg, hfg⟩ := hle h k f hf
      obtain ⟨f', hf', hgf⟩ := hle h' k g hg
      obtain rfl := Option.some.inj (hf.symm.trans hf')
      rw [hg, hfg.antisymm hgf]
    · intro hf
      obtain ⟨g, hg, hfg⟩ := hle h' k f hf
      obtain ⟨f', hf', hgf⟩ := hle h k g hg
      obtain rfl := Option.some.inj (hf.symm.trans hf')
      rw [hg, hfg.antisymm hgf]
  apply Vector.ext
  intro i hi
  exact hsame ⟨i, hi⟩

end Join

/-- Of an interpreter whose results only depend on the values it is given, and grow with these,
the analysis of a method finds the least solution of the flow equations: its table is one, and it
is below every other one.

So it is whatever queued place is visited next and in whatever order the edges out of it are
followed: no visit fails, there is no endless run, and when nothing is queued any more, the frames
are those that the analysis finds. -/
theorem analyze_least [FiniteHeight V] [DecidableEq V] {I : Interpreter V S} {s : S}
    {a : Analysis V S} (hI : I.WellBehaved) (h : analyze I s m = .ok a) :
    Solves I s m a.frame? ∧ (∀ T, Solves I s m T → TableLe a.frame? T) ∧
    (WellFounded fun w' w : Worklist V S m.code.length => w.Step I m w') ∧
    ∀ (hne : 0 < m.code.length) (w : Worklist V S m.code.length),
      Relation.ReflTransGen (Worklist.Step I m) (Worklist.initial I s m hne) w →
        (∀ i ∈ w.queue, ∀ order : List Exit, order.Perm (exits m i) →
          ∃ w', Worklist.visitBy I m order (w.taken i) i = .ok w') ∧
        (w.queue = [] → w.frames.toList = a.frames) := by
  have hanalyzes : Analyzes I s m (.ok a) := analyzes_iff.2 h
  have hm := hanalyzes.wellDeclared
  have hc := consistent_of_analyzes hI.keepsShape hanalyzes
  have hunderway : ∀ (hne : 0 < m.code.length) (w : Worklist V S m.code.length),
      Relation.ReflTransGen (Worklist.Step I m) (Worklist.initial I s m hne) w →
        w.Underway I s m fun i => (a.height? i).getD 0 := by
    intro hne w hsteps
    induction hsteps with
    | refl => exact Worklist.underway_initial hc hne
    | tail _ hstep ih => exact ih.step hI.keepsShape hm hc hstep
  -- the analysis is one of the runs
  obtain ⟨hne, last, -, hends, rfl⟩ := analyzes_ok_iff.1 hanalyzes
  obtain ⟨hsteps, hempty⟩ := Worklist.ends_steps hI.toIgnoresRecord hends
  have hsolves := (hunderway hne last hsteps).solves hI hempty
  refine ⟨hsolves, ?_, Worklist.step_wellFounded I m, ?_⟩
  · intro T hT
    exact tableLe_of_below (steps_below hI hT hsteps)
  · intro hne' w hsteps'
    have hw := hunderway hne' w hsteps'
    refine ⟨?_, ?_⟩
    · intro i _ order hperm
      obtain ⟨w', hw', -⟩ := Worklist.visitBy_ok (w := w.taken i) (i := i) hI.keepsShape hm hc
        hw.placed hperm
      exact ⟨w', hw'⟩
    · intro hempty'
      -- both tables are solutions, so each is below the other
      have hsame := frames_eq_of_below (steps_below hI hsolves hsteps')
        (steps_below hI (hw.solves hI hempty') hsteps)
      rw [hsame]

/-- Allocations are followed by a well-behaved interpreter. -/
theorem taint_wellBehaved : taint.WellBehaved := by
  refine ⟨⟨fun _ _ => rfl, fun _ _ _ _ => rfl, fun _ _ _ _ _ _ => rfl⟩, fun _ _ _ _ _ => rfl, ?_⟩
  intro s i call args args' f f' hargs _
  show (args'.any id || args.any id) = args'.any id
  induction hargs with
  | nil => rfl
  | @cons v' v vs' vs hhead _ ih =>
    have hor : (v' || v) = v' := hhead
    rw [List.any_cons, List.any_cons]
    cases v' <;> simp_all

/-- An object is allocated in each round of a loop and kept in the first slot. -/
def allocatingLoop : Method where
  name := "run"
  desc := "()V"
  isStatic := true
  maxLocals := 2
  maxStack := some 1
  code := [.load 0, .pop, .new "a/A", .store 0, .goto 0]
  handlers := [⟨0, 1, 1, none⟩]
  lines := []

/-- A solution for the loop in which nothing but the second slot is unmarked. -/
def loopMarks : Nat → Option (Frame Bool)
  | 0 | 2 | 4 => some ⟨[true, false], [], some 1⟩
  | 1 | 3 => some ⟨[true, false], [true], some 1⟩
  | _ => none

theorem solves_loopMarks : Solves taint [] allocatingLoop loopMarks := by
  have hbelow : (⟨[true, false], [], some 1⟩ : Frame Bool).Above ⟨[true, false], [], some 1⟩ :=
    ⟨.cons rfl (.cons rfl .nil), .nil⟩
  have hmarked : ∀ v : Bool, (⟨[true, false], [true], some 1⟩ : Frame Bool).Above
      ⟨[true, false], [v], some 1⟩ := by
    intro v
    exact ⟨.cons rfl (.cons rfl .nil), .cons rfl .nil⟩
  refine ⟨⟨_, rfl, .cons rfl (.cons rfl .nil), .nil⟩, ?_, ?_⟩
  · intro i f instr hf hcode j hj
    match i with
    | 0 | 2 =>
      cases hf
      cases hcode
      obtain rfl := List.mem_singleton.1 hj
      exact ⟨_, _, _, rfl, rfl, hmarked true⟩
    | 1 | 3 | 4 =>
      cases hf
      cases hcode
      obtain rfl := List.mem_singleton.1 hj
      exact ⟨_, _, _, rfl, rfl, hbelow⟩
    | i + 5 => cases hf
  · intro i f handler hf hmem
    match i with
    | 0 =>
      cases hf
      obtain rfl := List.mem_singleton.1 hmem
      exact ⟨_, rfl, hmarked false⟩
    | i + 1 =>
      have hnone : allocatingLoop.handlersCovering (i + 1) = [] := by
        simp [allocatingLoop, Method.handlersCovering, Handler.covers]
      rw [hnone] at hmem
      cases hmem

set_option maxRecDepth 10000 in
/-- Since there is a solution that leaves the second slot unmarked, so does the analysis of the
loop. The first visit succeeds as well when the handler is entered last. -/
theorem analyze_least_of_loop : ∃ a f, analyzeTaint allocatingLoop = .ok a ∧
    a.frame? 0 = some f ∧ f.locals[1]? = some false ∧
    ∃ w : Worklist Bool (List TaintEvent) allocatingLoop.code.length,
      Worklist.visitBy taint allocatingLoop [.successor 1, .handler ⟨0, 1, 1, none⟩]
        ((Worklist.initial taint [] allocatingLoop (by decide)).taken ⟨0, by decide⟩)
          ⟨0, by decide⟩ = .ok w := by
  obtain ⟨a, ha, -⟩ := analyze_of_runFor (I := taint) (m := allocatingLoop) 20 (s := [])
    _ (by decide) (by decide) rfl
  obtain ⟨hsolves, hleast, -, hruns⟩ := analyze_least taint_wellBehaved ha
  obtain ⟨f, hf, -⟩ := hsolves.entry
  obtain ⟨g, hg, habove⟩ := hleast loopMarks solves_loopMarks 0 f hf
  have hslot : f.locals[1]? = some false := by
    cases hg
    obtain ⟨locals, stack, limit⟩ := f
    cases habove.locals with
    | cons _ htail =>
      cases htail with
      | @cons _ v _ _ hsecond _ =>
        have hunmarked : (false || v) = false := hsecond
        simp_all
  obtain ⟨w, hw⟩ := (hruns (by decide) _ .refl).1 ⟨0, by decide⟩ (List.mem_singleton.2 rfl)
    [.successor 1, .handler ⟨0, 1, 1, none⟩] (by decide)
  exact ⟨a, f, ha, hf, hslot, w, hw⟩

end PoolLint.Flow

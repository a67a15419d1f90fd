import Mathlib.Logic.Relation
import PoolLint.Ownership.Tracker
import PoolLint.Proofs.Flow.Stability
import PoolLint.Resource.Table

/-!
# The frame table solves the flow equations on the reachable code

An instruction has a frame in the finished table exactly if control can reach it, and the table
is a solution of the flow equations there: whatever an instruction makes of its frame is merged
already into the frames of the places after it (`reachable_frames_solve`).

The equations speak of an execution without saying which record it starts from, so they are
stated for interpreters that do not look at their record. Monotonicity plays no part, and values
need not have finite height.
-/

namespace PoolLint

open PoolLint.Bytecode

/-- Control can reach instruction `i` from the first one along edges of the method. -/
def Bytecode.Method.Reachable (m : Method) (i : Nat) : Prop :=
  Relation.ReflTransGen m.Edge 0 i

namespace Flow

variable {V S : Type} {I : Interpreter V S} {m : Method} {s : S} {a : Analysis V S}

/-! ## Interpreters that do not look at their record -/

/-- New values, results of calls and what calls do to a frame are the same whatever was recorded
before. -/
structure Interpreter.IgnoresRecord (I : Interpreter V S) : Prop where
  newValue : ∀ s t, I.newValue s = I.newValue t
  fresh : ∀ s t i instr, (I.fresh s i instr).2 = (I.fresh t i instr).2
  call : ∀ s t i call args f, (I.call s i call args f).2 = (I.call t i call args f).2

/-- Two computations that begin in the same way are alike if they go on alike. -/
theorem Alike.bind_same {ε α β γ : Type} {Q : β → γ → Prop} (x : Except ε α)
    {f : α → Except ε β} {g : α → Except ε γ} (h : ∀ a, Alike Q (f a) (g a)) :
    Alike Q (x >>= f) (x >>= g) := by
  cases x with
  | error e => exact rfl
  | ok a => exact h a

namespace Interpreter

/-- Outcomes of executions with the same frame; the records are not compared. -/
def EqualFrames (x y : S × Frame V) : Prop := x.2 = y.2

variable {t u : S} {i : Nat} {f : Frame V}

theorem pushFresh_equalFrames (hI : I.IgnoresRecord) (instr : Instruction) :
    Alike EqualFrames (I.pushFresh t i instr f) (I.pushFresh u i instr f) := by
  unfold pushFresh
  have hfresh := hI.fresh t u i instr
  simp only [hfresh]
  exact .bind_same _ fun _ => .pure rfl

theorem invoke_equalFrames (hI : I.IgnoresRecord) (call : CallSite) (argCount : Nat) :
    Alike EqualFrames (I.invoke t i call argCount f) (I.invoke u i call argCount f) := by
  unfold invoke
  apply Alike.bind_same
  intro popped
  have hcall := hI.call t u i call popped.1 popped.2
  have hresult := congrArg Prod.fst hcall
  have hframe := congrArg Prod.snd hcall
  simp only [hresult, hframe]
  split_ifs
  · exact .bind_same _ fun _ => .pure rfl
  · exact .pure rfl

theorem effect_equalFrames (hI : I.IgnoresRecord) (instr : Instruction) :
    Alike EqualFrames (I.effect t i instr f) (I.effect u i instr f) := by
  have hfresh : ∀ g, Alike EqualFrames (I.pushFresh t i instr g) (I.pushFresh u i instr g) :=
    fun g => pushFresh_equalFrames hI instr
  cases instr with
  | nop | goto | ret | invoke => exact rfl
  | const | new => exact hfresh f
  | load | dup => exact .bind_same _ fun _ => .bind_same _ fun _ => .pure rfl
  | store => exact .bind_same _ fun _ => .bind_same _ fun _ => .pure rfl
  | pop | ifZero | switch | throw | ifCmp | checkCast | retValue =>
    exact .bind_same _ fun _ => .pure rfl
  | swap =>
    exact .bind_same _ fun _ => .bind_same _ fun _ => .bind_same _ fun _ =>
      .bind_same _ fun _ => .pure rfl
  | getField field isStatic =>
    cases isStatic with
    | true => exact hfresh f
    | false => exact .bind_same _ fun _ => hfresh _
  | putField field isStatic =>
    cases isStatic with
    | true => exact .bind_same _ fun _ => .pure rfl
    | false => exact .bind_same _ fun _ => .bind_same _ fun _ => .pure rfl
  | arrayLoad | binary | unary => exact .bind_same _ fun _ => hfresh _
  | arrayStore => exact .bind_same _ fun _ => .bind_same _ fun _ => .pure rfl

/-- The frame that an execution leads to does not depend on the record it starts from. -/
theorem execute_equalFrames (hI : I.IgnoresRecord) (instr : Instruction) :
    Alike EqualFrames (I.execute t i instr f) (I.execute u i instr f) := by
  have hlocated := (effect_equalFrames (t := t) (u := u) (i := i) (f := f) hI instr).located i
  cases instr with
  | invoke call =>
    simp only [execute]
    cases call.argCount? with
    | none => exact rfl
    | some argCount => exact (invoke_equalFrames hI call argCount).located i
  | _ => exact hlocated

/-- Nothing has to be known about records to speak of frames. -/
theorem accumulates_true (I : Interpreter V S) : I.Accumulates fun _ _ => True :=
  ⟨fun _ => trivial, fun _ _ => trivial, fun _ => trivial⟩

/-- A handler is entered with the locals as they are and one new value on the stack. -/
theorem handlerEntry_eq_ok {entry : Frame V} (h : I.handlerEntry t f = .ok entry) :
    entry = { f with stack := [I.newValue t] } := by
  unfold handlerEntry Frame.push at h
  split at h
  · cases h
  · exact (Except.ok.inj h).symm

end Interpreter

/-! ## Which instructions have a frame -/

section Reachable

variable [JoinSemilattice V] [DecidableEq V]

omit [JoinSemilattice V] [DecidableEq V] in
theorem Analysis.isReachable_eq_true {i : Nat} :
    a.isReachable i = true ↔ ∃ f, a.frame? i = some f :=
  Option.isSome_iff_exists

theorem Analyzes.lt_of_frame (h : Analyzes I s m (.ok a)) {i : Nat} {f : Frame V}
    (hf : a.frame? i = some f) : i < m.code.length := by
  obtain ⟨hne, w, -, -, rfl⟩ := analyzes_ok_iff.1 h
  exact ((frame?_eq_some w).1 hf).1

/-- Only what control can reach gets a frame. -/
theorem Analyzes.reachable_of_frame (h : Analyzes I s m (.ok a)) {i : Nat} {f : Frame V}
    (hf : a.frame? i = some f) : m.Reachable i := by
  have hkept : Worklist.Kept I m (fun _ _ => True) a.record (fun k _ => m.Reachable k)
      (fun _ => True) := by
    refine ⟨?_, ?_, ?_⟩
    · intro j instr t t' g g' _ hj _ _ _
      exact ⟨trivial, fun k hk => hj.tail (.inl hk)⟩
    · intro j handler t g entry hj _ hmem _
      exact hj.tail (.inr ⟨handler, hmem, rfl⟩)
    · intro k f g hk _ _
      exact hk
  exact (h.frames I.accumulates_true hkept .refl trivial).1 i f hf

/-- An edge leads from an instruction with a frame to one with a frame. -/
theorem Analyzes.frame_of_edge (h : Analyzes I s m (.ok a)) {i j : Nat} (hedge : m.Edge i j)
    {f : Frame V} (hf : a.frame? i = some f) : ∃ g, a.frame? j = some g := by
  obtain ⟨instr, t, t', after, -, -, -, hsuccessors, hhandlers⟩ :=
    h.settled I.accumulates_true hf
  rcases hedge with hsuccessor | ⟨handler, hmem, rfl⟩
  · obtain ⟨g, hg, -⟩ := hsuccessors j hsuccessor
    exact ⟨g, hg⟩
  · obtain ⟨u, entry, -, g, hg, -⟩ := hhandlers handler hmem
    exact ⟨g, hg⟩

/-- Exactly the reachable instructions have a frame. -/
theorem Analyzes.isReachable_iff (h : Analyzes I s m (.ok a)) (i : Nat) :
    a.isReachable i = true ↔ m.Reachable i := by
  rw [Analysis.isReachable_eq_true]
  constructor
  · rintro ⟨f, hf⟩
    exact h.reachable_of_frame hf
  · intro hreachable
    induction hreachable with
    | refl =>
      obtain ⟨f, hf, -⟩ := h.entry
      exact ⟨f, hf⟩
    | tail _ hedge ih =>
      obtain ⟨f, hf⟩ := ih
      exact h.frame_of_edge hedge hf

/-! ## The flow equations -/

/-- The finished table has a frame for exactly the reachable instructions. The first one is
above the entry frame. An instruction that control can reach can be executed on its frame; its
successors are instructions of the method, and merging the outcome into their frames changes
nothing. Nor does it change the frame of a handler that covers the instruction to merge in the
locals before it under a stack with one new value. -/
theorem reachable_frames_solve (hI : I.IgnoresRecord) (h : Analyzes I s m (.ok a)) :
    (∀ i, a.isReachable i = true ↔ m.Reachable i) ∧
    (∃ f, a.frame? 0 = some f ∧ f.Above (Frame.new m.maxLocals m.maxStack (I.newValue s))) ∧
    ∀ i, m.Reachable i → ∃ instr f, m.code[i]? = some instr ∧ a.frame? i = some f ∧
      ∀ t, (∃ t' after, I.execute t i instr f = .ok (t', after) ∧
          ∀ j ∈ m.successors i, j < m.code.length ∧
            ∃ g, a.frame? j = some g ∧ g.mergeFrom after = .ok (g, false)) ∧
        ∀ handler ∈ m.handlersCovering i, ∃ g, a.frame? handler.target = some g ∧
          g.mergeFrom { f with stack := [I.newValue t] } = .ok (g, false) := by
  refine ⟨h.isReachable_iff, ?_, ?_⟩
  · obtain ⟨f, hf, hgrown⟩ := h.entry
    exact ⟨f, hf, hgrown.above⟩
  · intro i hreachable
    obtain ⟨f, hf⟩ := Analysis.isReachable_eq_true.1 ((h.isReachable_iff i).2 hreachable)
    obtain ⟨instr, u, u', after, hcode, hexecute, -, hsuccessors, hhandlers⟩ :=
      h.settled I.accumulates_true hf
    refine ⟨instr, f, hcode, hf, fun t => ⟨?_, ?_⟩⟩
    · -- the table was left with this outcome of some execution, and there is no other outcome
      have halike := Interpreter.execute_equalFrames (t := u) (u := t) (i := i) (f := f) hI instr
      obtain ⟨⟨t', after'⟩, hexecute', hsame⟩ := halike.exists_ok hexecute
      obtain rfl : after = after' := hsame
      refine ⟨t', after, hexecute', ?_⟩
      intro j hj
      obtain ⟨g, hg, habsorbs⟩ := hsuccessors j hj
      exact ⟨h.lt_of_frame hg, g, hg, habsorbs⟩
    · intro handler hmem
      obtain ⟨v, entry, hentry, g, hg, habsorbs⟩ := hhandlers handler hmem
      have hentry' := Interpreter.handlerEntry_eq_ok hentry
      rw [hI.newValue v t] at hentry'
      exact ⟨g, hg, hentry' ▸ habsorbs⟩

end Reachable
end Flow

/-! ## The tracker -/

open PoolLint.Flow

theorem tracker_ignoresRecord (kind : ResourceKind) (obtainAt : Nat) :
    (tracker kind obtainAt).IgnoresRecord := by
  refine ⟨fun _ _ => rfl, fun _ _ _ _ => rfl, ?_⟩
  intro e e' i site args f
  show (Tracker.call kind obtainAt e i site args f).2 =
    (Tracker.call kind obtainAt e' i site args f).2
  unfold Tracker.call
  split_ifs <;> rfl

/-- A parcel is given back in a loop whose body is guarded by a handler that leads back into it;
the last instruction is out of reach. -/
def guardedLoop : Method where
  name := "run"
  desc := "()V"
  isStatic := true
  maxLocals := 1
  maxStack := some 1
  code := [.invoke ⟨.static, "android/os/Parcel", "obtain", "()Landroid/os/Parcel;"⟩, .store 0,
    .load 0, .invoke ⟨.virtual, "android/os/Parcel", "recycle", "()V"⟩, .goto 2, .pop, .goto 2,
    .ret]
  handlers := [⟨2, 6, 5, none⟩]
  lines := []

set_option maxRecDepth 10000 in
/-- The release is noted, and noted again as a use after release when the loop comes back. -/
theorem track_guardedLoop : ∃ a, trackInstance guardedLoop 0 ResourceTable.parcel = .ok a ∧
    a.record = ⟨true, [], [3]⟩ :=
  analyze_of_runFor 30 _ (by decide) (by decide) (by decide)

theorem reachable_guardedLoop :
    guardedLoop.Reachable 1 ∧ guardedLoop.Reachable 2 ∧ guardedLoop.Reachable 3 := by
  have hstore : guardedLoop.Reachable 1 := .single (.inl (by decide))
  have hload : guardedLoop.Reachable 2 := hstore.tail (.inl (by decide))
  exact ⟨hstore, hload, hload.tail (.inl (by decide))⟩

/-- The table for a parcel in the guarded loop has no frame for what is out of reach, one for
the handler, which covers its own first instruction, and solves the equation of the release. -/
theorem reachable_frames_solve_of_loop : ∃ a,
    analyze (tracker ResourceTable.parcel 0) .none guardedLoop = .ok a ∧
      a.isReachable 7 = false ∧ a.isReachable 5 = true ∧
      ∃ instr f t' after, guardedLoop.code[3]? = some instr ∧ a.frame? 3 = some f ∧
        (tracker ResourceTable.parcel 0).execute .none 3 instr f = .ok (t', after) ∧
        ∃ g, a.frame? 4 = some g ∧ g.mergeFrom after = .ok (g, false) := by
  obtain ⟨a, ha, -⟩ := track_guardedLoop
  obtain ⟨hreachable, -, hsolves⟩ :=
    reachable_frames_solve (tracker_ignoresRecord ResourceTable.parcel 0) (analyzes_iff.2 ha)
  obtain ⟨-, hload, hrelease⟩ := reachable_guardedLoop
  have hhandler : guardedLoop.Reachable 5 := hload.tail (.inr ⟨⟨2, 6, 5, none⟩, by decide, rfl⟩)
  have hlt : ∀ i, guardedLoop.Reachable i → i < 7 := by
    intro i hi
    induction hi with
    | refl => decide
    | @tail j k _ hedge ih =>
      have hsuccessors : ∀ j < 7, ∀ k ∈ guardedLoop.successors j, k < 7 := by decide
      have hhandlers : ∀ handler ∈ guardedLoop.handlers, handler.target < 7 := by decide
      rcases hedge with hsuccessor | ⟨handler, hmem, rfl⟩
      · exact hsuccessors j ih k hsuccessor
      · exact hhandlers handler (List.mem_of_mem_filter hmem)
  have hout : a.isReachable 7 = false := by
    rw [← Bool.not_eq_true, hreachable 7]
    intro h
    exact absurd (hlt 7 h) (by decide)
  obtain ⟨instr, f, hcode, hf, hexecutes⟩ := hsolves 3 hrelease
  obtain ⟨t', after, hexecute, hsuccessors⟩ := (hexecutes .none).1
  obtain rfl : instr = .invoke ⟨.virtual, "android/os/Parcel", "recycle", "()V"⟩ :=
    (Option.some.inj hcode).symm
  obtain ⟨-, hmerged⟩ := hsuccessors 4 (by decide)
  exact ⟨a, ha, hout, (hreachable 5).2 hhandler, _, f, t', after, hcode, hf, hexecute,
    hmerged⟩

end PoolLint

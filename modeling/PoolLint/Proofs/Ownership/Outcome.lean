import PoolLint.Flow.Taint
import PoolLint.Proofs.Flow.Effort
import PoolLint.Proofs.Flow.Tables
import PoolLint.Proofs.Ownership.LeakVerdict

/-!
# Whether and how tracking ends

Three things are settled by the method alone, whatever instance is followed through it.

Tracking always ends, without an index out of range and after a number of visits that is bounded
by the sizes of the frames (`tracking_ends`). This does not come from the tracker being monotone:
it is not, since a place that holds the instance is marked as released only by a release whose
receiver is still tracked.

It ends with a table exactly for the methods that are declared well and whose stack heights are
consistent (`tracking_succeeds_iff`). And where it fails, it fails in the same way for every
instance, and so does any other analysis that leaves frames their size and the limit of their stack
(`failure_independent_of_interpreter`). Sizes alone do not suffice (`failure_depends_on_limit`).
-/

namespace PoolLint

open PoolLint.Bytecode PoolLint.Flow

/-! ## Interpreters -/

/-- From greater values, executions that succeed lead to greater values. -/
def Flow.Interpreter.Monotone {V S : Type} [JoinSemilattice V] (I : Interpreter V S) : Prop :=
  ∀ s t s' t' i instr f g f' g', g.Above f → I.execute s i instr f = .ok (s', f') →
    I.execute t i instr g = .ok (t', g') → g'.Above f'

theorem taint_keepsSize : taint.KeepsSize :=
  ⟨fun _ _ _ _ _ => rfl, fun _ _ _ _ _ => rfl⟩

theorem taint_keepsLimit : taint.KeepsLimit :=
  fun _ _ _ _ _ => rfl

/-- What a call of one argument that is executed on an unlimited stack leaves in the slots is
what the interpreter makes of them. -/
theorem execute_unary_call {V S : Type} {I : Interpreter V S} {call : CallSite}
    (hcount : call.argCount? = some 1) (s : S) (i : Nat) (locals : List V) (v : V) {g : Frame V}
    (hcall : (I.call s i call [v] ⟨locals, [], none⟩).2.2 = g) (hlimit : g.maxStack = none) :
    ∃ s' f', I.execute s i (.invoke call) ⟨locals, [v], none⟩ = .ok (s', f') ∧
      f'.locals = g.locals := by
  have hpop : (⟨locals, [v], none⟩ : Frame V).popN 1 = .ok ([v], ⟨locals, [], none⟩) := rfl
  have hpush : ∀ u, g.push u = .ok { g with stack := u :: g.stack } := by
    intro u
    unfold Frame.push Frame.exhausted?
    rw [hlimit]
    rfl
  simp only [Interpreter.execute, hcount, Interpreter.invoke, hpop, bind, Except.bind, hcall]
  by_cases hreturns : call.returnsValue
  · rw [if_pos hreturns]
    simp only [hpush]
    exact ⟨_, _, rfl, rfl⟩
  · rw [if_neg hreturns]
    exact ⟨_, _, rfl, rfl⟩

/-- A release of the instance marks all its places as released, but a call on a place that is
released already marks none. So the tracker is not monotone, if the release of the kind takes
nothing but its receiver. -/
theorem tracker_not_monotone {kind : ResourceKind} (obtainAt : Nat) {call : CallSite}
    (hrelease : Tracker.isRecycleCall kind call = true) (hcount : call.argCount? = some 1) :
    ¬(tracker kind obtainAt).Monotone := by
  intro hmonotone
  have hi : obtainAt + 1 ≠ obtainAt := by omega
  have habove : (⟨[.tracked], [.released], none⟩ : Frame Ownership).Above
      ⟨[.tracked], [.tracked], none⟩ := ⟨.cons rfl .nil, .cons rfl .nil⟩
  -- on the smaller frame the slot is marked as released
  have hmarked : ((tracker kind obtainAt).call .none (obtainAt + 1) call [.tracked]
      ⟨[.tracked], [], none⟩).2.2 = ⟨[.released], [], none⟩ := by
    show (Tracker.call _ _ _ _ _ _ _).2.2 = _
    rw [Tracker.call_release hi hrelease]
    rfl
  obtain ⟨s', f', hf', hsmall⟩ :=
    execute_unary_call hcount _ _ _ _ hmarked rfl
  -- on the greater one it stays tracked
  have hkept : ((tracker kind obtainAt).call .none (obtainAt + 1) call [.released]
      ⟨[.tracked], [], none⟩).2.2 = ⟨[.tracked], [], none⟩ := by
    show (Tracker.call _ _ _ _ _ _ _).2.2 = _
    rw [Tracker.call_use hi (by simp)]
  obtain ⟨t', g', hg', hgreat⟩ :=
    execute_unary_call hcount _ _ _ _ hkept rfl
  have hlocals := (hmonotone _ _ _ _ _ _ _ _ _ _ habove hf' hg').locals
  rw [hsmall, hgreat] at hlocals
  cases hlocals with
  | cons hmerge _ => cases hmerge

/-! ## Tracking ends -/

/-- Tracking an instance always ends with a table or with an error of the analysis: on tables
that are indexed without a check it leads to the same outcome after some number of visits, and no
index is out of range. If there is a table, every reachable instruction was visited, and it was
visited once more only when a value of its frame grew, which happens at most twice for each.
Executions are not monotone. -/
theorem tracking_ends (m : Method) (obtainAt : Nat) (kind : ResourceKind) :
    (∃ visits, Tables.analyze (tracker kind obtainAt) .none m visits =
      some (Tables.orGiveUp (trackInstance m obtainAt kind))) ∧
    (∀ a, trackInstance m obtainAt kind = .ok a →
      (∀ i, i ∈ a.reached ↔ m.Reachable i) ∧ a.reached.card ≤ a.steps ∧
        a.steps ≤ ∑ i ∈ a.reached, (1 + 2 * (m.maxLocals + (a.height? i).getD 0))) ∧
    ∀ call, Tracker.isRecycleCall kind call = true → call.argCount? = some 1 →
      ¬(tracker kind obtainAt).Monotone := by
  refine ⟨?_, ?_, ?_⟩
  · exact Tables.analyze_tables (analyzes_iff.2 rfl)
  · intro a ha
    have hanalyzes : Analyzes (tracker kind obtainAt) .none m (.ok a) := analyzes_iff.2 ha
    obtain ⟨hleast, hmost⟩ := hanalyzes.steps_bounds (tracker_keepsShape kind obtainAt)
    exact ⟨fun i => hanalyzes.mem_reached, hleast, hmost⟩
  · intro call hrelease hcount
    exact tracker_not_monotone obtainAt hrelease hcount

set_option maxRecDepth 10000 in
/-- The release in a guarded loop makes the tracker visit the loop again, within the bound. -/
theorem tracking_ends_of_loop : ∃ a,
    trackInstance guardedLoop 0 ResourceTable.parcel = .ok a ∧ a.record = ⟨true, [], [3]⟩ ∧
      a.reached.card ≤ a.steps ∧
      a.steps ≤ ∑ i ∈ a.reached, (1 + 2 * (1 + (a.height? i).getD 0)) ∧
      ¬(tracker ResourceTable.parcel 0).Monotone := by
  obtain ⟨a, ha, hrecord⟩ := track_guardedLoop
  obtain ⟨-, hbounds, hnot⟩ := tracking_ends guardedLoop 0 ResourceTable.parcel
  obtain ⟨-, hleast, hmost⟩ := hbounds a ha
  have hmonotone := hnot ⟨.virtual, "android/os/Parcel", "recycle", "()V"⟩ (by decide) (by decide)
  exact ⟨a, ha, hrecord, hleast, hmost, hmonotone⟩

/-! ## Tracking succeeds on consistent methods -/

/-- Tracking succeeds exactly if the method is declared well and heights can be assigned to its
reachable instructions that start at zero, let every instruction be executed and agree along
edges. The frames then have these heights, and one slot for each declared local. -/
theorem tracking_succeeds_iff (m : Method) (obtainAt : Nat) (kind : ResourceKind) :
    ((∃ a, trackInstance m obtainAt kind = .ok a) ↔
      m.WellDeclared ∧ ∃ height, StackConsistent m height) ∧
    ∀ a height, trackInstance m obtainAt kind = .ok a → StackConsistent m height →
      ∀ i, m.Reachable i → ∃ f, a.frame? i = some f ∧ f.stackHeight = height i ∧
        f.locals.length = m.maxLocals := by
  have hkeeps := tracker_keepsShape kind obtainAt
  refine ⟨⟨?_, ?_⟩, ?_⟩
  · rintro ⟨a, ha⟩
    have hanalyzes : Analyzes (tracker kind obtainAt) .none m (.ok a) := analyzes_iff.2 ha
    exact ⟨hanalyzes.wellDeclared, _, consistent_of_analyzes hkeeps hanalyzes⟩
  · rintro ⟨hm, height, hconsistent⟩
    have hanalyzes : Analyzes (tracker kind obtainAt) .none m (trackInstance m obtainAt kind) :=
      analyzes_iff.2 rfl
    obtain ⟨a, ha, -⟩ := analyzes_ok_of_consistent hkeeps hm hconsistent hanalyzes
    exact ⟨a, ha⟩
  · intro a height ha hconsistent i hi
    have hanalyzes : Analyzes (tracker kind obtainAt) .none m (.ok a) := analyzes_iff.2 ha
    obtain ⟨a', ha', hsized⟩ :=
      analyzes_ok_of_consistent hkeeps hanalyzes.wellDeclared hconsistent hanalyzes
    obtain rfl := Except.ok.inj ha'
    obtain ⟨f, hf⟩ := Analysis.isReachable_eq_true.1 ((hanalyzes.isReachable_iff i).2 hi)
    exact ⟨f, hf, (hsized i f hf).stack, (hsized i f hf).width⟩

set_option maxRecDepth 10000 in
/-- The guarded loop is consistent, and its release is reached with the parcel on the stack. -/
theorem tracking_succeeds_of_loop : ∃ a f,
    trackInstance guardedLoop 0 ResourceTable.parcel = .ok a ∧ guardedLoop.WellDeclared ∧
      a.frame? 3 = some f ∧ f.stackHeight = 1 ∧ f.locals.length = 1 := by
  obtain ⟨a, ha, -⟩ := track_guardedLoop
  obtain ⟨hsucceeds, hframes⟩ := tracking_succeeds_iff guardedLoop 0 ResourceTable.parcel
  obtain ⟨hm, height, hconsistent⟩ := hsucceeds.1 ⟨a, ha⟩
  obtain ⟨hstore, hload, hrelease⟩ := reachable_guardedLoop
  obtain ⟨f, hf, hheight, hwidth⟩ := hframes a height ha hconsistent 3 hrelease
  -- a parcel is pushed, stored and loaded
  have hone := (hconsistent.successor 0 1 _ .refl rfl (.inr ⟨rfl, rfl⟩)).2.eq
    (CallSite.argCount?_eq_some_iff.1 rfl)
  have htwo := (hconsistent.successor 1 2 _ hstore rfl (.inr ⟨rfl, rfl⟩)).2.eq rfl
  have hthree := (hconsistent.successor 2 3 _ hload rfl (.inr ⟨rfl, rfl⟩)).2.eq rfl
  rw [hconsistent.entry] at hone
  rw [hone] at htwo
  rw [htwo] at hthree
  refine ⟨a, f, ha, hm, hf, ?_, hwidth⟩
  rw [hheight, hthree]
  decide

/-! ## Failure does not depend on the interpreter -/

theorem checkMethodFlow_eq_error {m : Method} {obtainAt : Nat} {kind : ResourceKind}
    {e : FlowError} : checkMethodFlow m obtainAt kind = .error e ↔
      trackInstance m obtainAt kind = .error e := by
  unfold checkMethodFlow
  cases trackInstance m obtainAt kind with
  | error e' =>
    constructor
    · intro h
      obtain rfl : e' = e := Except.error.inj h
      rfl
    · intro h
      obtain rfl : e' = e := Except.error.inj h
      rfl
  | ok a =>
    constructor
    · intro h
      cases h
    · intro h
      cases h

/-- Two analyses of a method by interpreters that leave frames their size and limit fail alike,
with the same error; if both end with a table, control has reached the same instructions with the
same stack heights. So it is for any two instances that are followed through a method, and for an
instance and an allocation. -/
theorem failure_independent_of_interpreter {V W S T : Type} [JoinSemilattice V] [DecidableEq V]
    [JoinSemilattice W] [DecidableEq W] {I : Interpreter V S} {J : Interpreter W T}
    (hI : I.KeepsSize) (hlimit : I.KeepsLimit) (hJ : J.KeepsSize) (hlimit' : J.KeepsLimit)
    (s : S) (t : T) (m : Method) :
    (∀ e, Analyzes I s m (.error e) ↔ Analyzes J t m (.error e)) ∧
    (∀ a b, Analyzes I s m (.ok a) → Analyzes J t m (.ok b) →
      ∀ i, a.isReachable i = b.isReachable i ∧ a.height? i = b.height? i) ∧
    ∀ kind obtainAt e,
      (trackInstance m obtainAt kind = .error e ↔ analyzeTaint m = .error e) ∧
      ∀ kind' obtainAt', checkMethodFlow m obtainAt kind = .error e ↔
        checkMethodFlow m obtainAt' kind' = .error e := by
  have hshape := hI.keepsShape hlimit
  have hshape' := hJ.keepsShape hlimit'
  refine ⟨?_, ?_, ?_⟩
  · exact (analyzes_agree hshape hshape').1
  · intro a b ha hb i
    have hheight := (analyzes_agree hshape hshape').2 a b ha hb i
    refine ⟨?_, hheight⟩
    rw [a.isReachable_eq_isSome, b.isReachable_eq_isSome, hheight]
  · intro kind obtainAt e
    have hagree : ∀ {U R : Type} [FiniteHeight U] [DecidableEq U] {K : Interpreter U R} (r : R),
        K.KeepsShape → (trackInstance m obtainAt kind = .error e ↔ analyze K r m = .error e) := by
      intro U R _ _ K r hK
      have hiff := (analyzes_agree (s := Evidence.none) (t := r) (m := m)
        (tracker_keepsShape kind obtainAt) hK).1 e
      rw [analyzes_iff, analyzes_iff] at hiff
      exact hiff
    refine ⟨hagree [] (taint_keepsSize.keepsShape taint_keepsLimit), ?_⟩
    intro kind' obtainAt'
    rw [checkMethodFlow_eq_error, checkMethodFlow_eq_error]
    exact hagree .none (tracker_keepsShape kind' obtainAt')

/-- Each time round the loop there is one more constant on the stack. -/
def growingLoop : Method :=
  plainMethod 0 [.const (.int 0), .goto 0]

set_option maxRecDepth 10000 in
/-- The allocations of a loop cannot be found because its stack grows; hence no instance can be
followed through it either, and the error is the same. -/
theorem failure_independent_of_growth :
    analyzeTaint growingLoop = .error (.frame 0 (.heightMismatch 0 1)) ∧
      trackInstance growingLoop 0 ResourceTable.parcel =
        .error (.frame 0 (.heightMismatch 0 1)) := by
  have htaint : Analyzes taint [] growingLoop (.error (.frame 0 (.heightMismatch 0 1))) :=
    analyzes_error_of_runFor 5 (by decide) (by decide) (by decide)
  have hagree := failure_independent_of_interpreter taint_keepsSize taint_keepsLimit
    (tracker_keepsSize ResourceTable.parcel 0) (tracker_keepsLimit ResourceTable.parcel 0) []
    Evidence.none growingLoop
  exact ⟨analyzes_iff.1 htaint, analyzes_iff.1 ((hagree.1 _).1 htaint)⟩

/-- Tracks allocations, and puts a frame without a limit in place of the one that a call finds. -/
def limitlessTaint : Interpreter Bool (List TaintEvent) :=
  { taint with
    call := fun events i call args f =>
      let (events, result, f) := taint.call events i call args f
      (events, result, { f with maxStack := none }) }

/-- After a call there are two constants, of which only one has room. -/
def tooManyConstants : Method :=
  { plainMethod 0 [.invoke ⟨.static, "app/Log", "flush", "()V"⟩, .const (.int 0), .const (.int 1),
      .ret] with
    maxStack := some 1 }

set_option maxRecDepth 10000 in
/-- An analysis by an interpreter that leaves frames their size can fail where another one
succeeds, if a call of the other one changes the limit of the stack. -/
theorem failure_depends_on_limit :
    taint.KeepsSize ∧ limitlessTaint.KeepsSize ∧
      analyze taint [] tooManyConstants = .error (.frame 2 (.stackOverflow 1)) ∧
      ∃ a, analyze limitlessTaint [] tooManyConstants = .ok a ∧ a.height? 3 = some 2 := by
  have htaint : Analyzes taint [] tooManyConstants (.error (.frame 2 (.stackOverflow 1))) :=
    analyzes_error_of_runFor 5 (by decide) (by decide) (by decide)
  have hsize : limitlessTaint.KeepsSize := ⟨fun _ _ _ _ _ => rfl, fun _ _ _ _ _ => rfl⟩
  refine ⟨taint_keepsSize, hsize, analyzes_iff.1 htaint, ?_⟩
  exact analyze_view_of_runFor (·.height? 3) 5 (some 2) (by decide) (by decide) (by decide)

end PoolLint

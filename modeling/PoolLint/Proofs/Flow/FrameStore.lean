import PoolLint.Flow.FrameStore
import PoolLint.Ownership.Basic
import PoolLint.Proofs.Flow.Merging

/-!
# Operations on frames

What every program with frames in variables keeps. An operation in place does what the operation
on frames as values does (`FrameStep.run_on`): its failure leaves the frame as it was, because all
that can fail is checked before anything is written. So a frame has as many slots as it was created
with and a stack within its limit, whatever is done with it and with others (`program_keeps`).
-/

namespace PoolLint.Flow

variable {V α β : Type} {f g : Frame V}

namespace InPlace

/-! ## Computations in place -/

theorem on_get_bind (k : Frame V → InPlace V α) : (get >>= k).on f = (k f).on f :=
  rfl

theorem on_bind (c : InPlace V α) (k : α → InPlace V β) : (c >>= k).on f =
    match c.on f with
    | (.ok a, g) => (k a).on g
    | (.error e, g) => (.error e, g) := by
  unfold on
  rw [ExceptT.run_bind, StateT.run_bind]
  cases StateT.run (ExceptT.run c) f with
  | mk outcome g => cases outcome <;> rfl

theorem on_map (c : InPlace V α) (k : α → β) :
    (k <$> c).on f = ((c.on f).1.map k, (c.on f).2) := by
  rw [← bind_pure_comp, on_bind]
  cases c.on f with
  | mk outcome g => cases outcome <;> rfl

/-- What an operation comes to that yields a frame if it succeeds, and otherwise leaves `f` as it
is. -/
def settle (f : Frame V) : Except FrameError (α × Frame V) → Except FrameError α × Frame V
  | .ok (a, g) => (.ok a, g)
  | .error e => (.error e, f)

/-- What is made of an answer does not concern the frame. -/
theorem on_map_of_settle {c : InPlace V α} {x : Except FrameError (α × Frame V)} (k : α → β)
    (h : c.on f = settle f x) : (k <$> c).on f = settle f (x.map fun r => (k r.1, r.2)) := by
  rw [on_map, h]
  cases x <;> rfl

theorem push_on (v : V) : (push v).on f = settle f ((f.push v).map ((), ·)) := by
  unfold push Frame.push
  rw [on_get_bind]
  cases f.exhausted? <;> rfl

theorem pop_on : pop.on f = settle f f.pop := by
  unfold pop Frame.pop
  rw [on_get_bind]
  cases f.stack <;> rfl

theorem popN_on (n : Nat) : (popN n).on f = settle f (f.popN n) := by
  unfold popN Frame.popN
  rw [on_get_bind]
  by_cases h : n ≤ f.stack.length
  · rw [if_neg (Nat.not_lt.2 h), if_pos h]
    rfl
  · rw [if_pos (Nat.lt_of_not_le h), if_neg h]
    rfl

theorem peek_on : peek.on f = settle f (f.peek.map (·, f)) := by
  unfold peek Frame.peek
  rw [on_get_bind]
  cases f.stack <;> rfl

theorem getLocal_on (slot : Nat) :
    (getLocal slot).on f = settle f ((f.getLocal slot).map (·, f)) := by
  unfold getLocal Frame.getLocal
  rw [on_get_bind]
  cases f.locals[slot]? <;> rfl

theorem setLocal_on (slot : Nat) (v : V) :
    (setLocal slot v).on f = settle f ((f.setLocal slot v).map ((), ·)) := by
  unfold setLocal Frame.setLocal
  rw [on_get_bind]
  by_cases h : slot < f.locals.length
  · rw [if_neg (Nat.not_le.2 h), if_pos h]
    rfl
  · rw [if_pos (Nat.le_of_not_lt h), if_neg h]
    rfl

/-! ## Merging in place -/

section Merging

variable [JoinSemilattice V] [DecidableEq V]

/-- Place by place the values become what the lists merge to, and the flag tells whether that is
something else. -/
theorem mergeEach_eq (changed : Bool) (as bs : List V) : mergeEach changed as bs =
    (Frame.mergeValues as bs, changed || decide (Frame.mergeValues as bs ≠ as)) := by
  induction as generalizing changed bs with
  | nil => cases bs <;> simp [mergeEach, Frame.mergeValues]
  | cons a as ih =>
    cases bs with
    | nil => simp [mergeEach, Frame.mergeValues]
    | cons b bs =>
      by_cases hsame : merge a b = a
      · simp [mergeEach, Frame.mergeValues, hsame, ih]
      · simp [mergeEach, Frame.mergeValues, hsame, ih]

theorem mergeFrom_on (g : Frame V) :
    (mergeFrom g).on f = settle f ((f.mergeFrom g).map Prod.swap) := by
  unfold mergeFrom Frame.mergeFrom
  rw [on_get_bind]
  by_cases hheight : f.stack.length = g.stack.length
  · have hchanged : (decide (Frame.mergeValues f.locals g.locals ≠ f.locals) ||
        decide (Frame.mergeValues f.stack g.stack ≠ f.stack)) = decide (f.merged g ≠ f) := by
      obtain ⟨locals, stack, maxStack⟩ := f
      rw [← Bool.decide_or, decide_eq_decide, Frame.merged, ne_eq, ne_eq, ne_eq, Frame.mk.injEq]
      tauto
    rw [if_neg (not_not.2 hheight), if_pos hheight]
    simp only [mergeEach_eq, Bool.false_or]
    show (Except.ok (_ || _), _) = (Except.ok (decide (f.merged g ≠ f)), f.merged g)
    rw [hchanged]
    rfl
  · rw [if_pos hheight, if_neg hheight]
    rfl

end Merging

/-! ## Single pops -/

/-- Pops one value after the other, and lists them in the order they are popped. -/
def pops : Nat → InPlace V (List V)
  | 0 => return []
  | n + 1 => do
    let v ← pop
    let vs ← pops n
    return v :: vs

theorem pops_succ_on (n : Nat) : (pops (n + 1)).on f =
    match pop.on f with
    | (.ok v, g) => (((pops n).on g).1.map (v :: ·), ((pops n).on g).2)
    | (.error e, g) => (.error e, g) := by
  rw [pops, on_bind]
  cases pop.on f with
  | mk outcome g =>
    cases outcome with
    | error e => rfl
    | ok v =>
      have hrest : (pops n >>= fun vs => pure (v :: vs)) = (v :: ·) <$> pops n :=
        bind_pure_comp _ _
      simp only [hrest, on_map]

/-- Single pops that run out of values leave an empty stack behind. -/
theorem pops_on (n : Nat) : (pops n).on f =
    if n ≤ f.stack.length then (.ok (f.stack.take n), { f with stack := f.stack.drop n })
    else (.error .stackUnderflow, { f with stack := [] }) := by
  induction n generalizing f with
  | zero =>
    rw [if_pos (Nat.zero_le _)]
    rfl
  | succ n ih =>
    rw [pops_succ_on, pop_on, Frame.pop]
    obtain ⟨locals, stack, maxStack⟩ := f
    cases stack with
    | nil => rfl
    | cons v rest =>
      simp only [settle, ih, List.length_cons, Nat.add_le_add_iff_right]
      by_cases h : n ≤ rest.length
      · rw [if_pos h, if_pos h]
        rfl
      · rw [if_neg h, if_neg h]
        rfl

/-- Values that are taken at once are the values of single pops, the other way round. -/
theorem popN_on_eq_pops {n : Nat} (h : n ≤ f.stack.length) :
    (popN n).on f = (List.reverse <$> pops n).on f := by
  rw [on_map, pops_on, if_pos h, popN_on, Frame.popN, if_pos h]
  rfl

theorem popN_on_of_lt {n : Nat} (h : f.stack.length < n) :
    (popN n).on f = (.error .stackUnderflow, f) ∧ ((pops n).on f).1 = .error .stackUnderflow := by
  have hnot : ¬ n ≤ f.stack.length := Nat.not_le.2 h
  rw [pops_on, if_neg hnot, popN_on, Frame.popN, if_neg hnot]
  exact ⟨rfl, rfl⟩

end InPlace

/-! ## What an operation keeps -/

/-- The sizes that a frame is created with. -/
structure FrameSize where
  maxLocals : Nat
  maxStack : Option Nat
deriving DecidableEq, Repr

/-- The sizes that the frame says it has. -/
def Frame.declared (f : Frame V) : FrameSize :=
  ⟨f.locals.length, f.maxStack⟩

/-- The stack is within the limit, if there is one. -/
def Frame.InLimit (f : Frame V) : Prop :=
  ∀ max, f.maxStack = some max → f.stackHeight ≤ max

/-- The second frame has the sizes of the first, and a stack within the limit if the first has. -/
structure Frame.Keeps (f g : Frame V) : Prop where
  declared : g.declared = f.declared
  inLimit : f.InLimit → g.InLimit

namespace Frame.Keeps

theorem of_height_le (hlocals : g.locals.length = f.locals.length)
    (hlimit : g.maxStack = f.maxStack) (hheight : g.stackHeight ≤ f.stackHeight) : f.Keeps g := by
  refine ⟨?_, ?_⟩
  · unfold Frame.declared
    rw [hlocals, hlimit]
  · intro h max hmax
    exact Nat.le_trans hheight (h max (hlimit ▸ hmax))

theorem refl (f : Frame V) : f.Keeps f :=
  ⟨rfl, id⟩

theorem push {v : V} (h : f.push v = .ok g) : f.Keeps g := by
  unfold Frame.push at h
  cases hfull : f.exhausted? with
  | some max =>
    rw [hfull] at h
    cases h
  | none =>
    rw [hfull] at h
    obtain rfl := Except.ok.inj h
    refine ⟨rfl, ?_⟩
    intro _ max hmax
    have hroom : ∀ max, f.maxStack = some max → f.stack.length < max := by
      simpa [exhausted?] using hfull
    exact hroom max hmax

theorem pop {v : V} (h : f.pop = .ok (v, g)) : f.Keeps g := by
  unfold Frame.pop at h
  cases hstack : f.stack with
  | nil =>
    rw [hstack] at h
    cases h
  | cons v' rest =>
    rw [hstack] at h
    obtain ⟨-, rfl⟩ := Prod.mk.inj (Except.ok.inj h)
    refine of_height_le rfl rfl ?_
    show rest.length ≤ f.stack.length
    rw [hstack, List.length_cons]
    omega

theorem popN {n : Nat} {vs : List V} (h : f.popN n = .ok (vs, g)) : f.Keeps g := by
  unfold Frame.popN at h
  split at h
  · obtain ⟨-, rfl⟩ := Prod.mk.inj (Except.ok.inj h)
    refine of_height_le rfl rfl ?_
    show (f.stack.drop n).length ≤ f.stack.length
    rw [List.length_drop]
    omega
  · cases h

theorem setLocal {slot : Nat} {v : V} (h : f.setLocal slot v = .ok g) : f.Keeps g := by
  unfold Frame.setLocal at h
  split at h
  · obtain rfl := Except.ok.inj h
    exact of_height_le List.length_set rfl (Nat.le_refl _)
  · cases h

theorem mergeFrom [JoinSemilattice V] [DecidableEq V] {k : Frame V} {changed : Bool}
    (h : f.mergeFrom k = .ok (g, changed)) : f.Keeps g := by
  obtain ⟨-, rfl, -⟩ := mergeFrom_eq_ok.1 h
  exact of_height_le (length_mergeValues _ _) rfl (Nat.le_of_eq (length_mergeValues _ _))

end Frame.Keeps

/-! ## Steps -/

namespace FrameStep

open InPlace

variable [JoinSemilattice V] [DecidableEq V]

/-- The step as an operation on frames that are values. -/
def outcome (f : Frame V) : FrameStep V → Except FrameError (FrameAnswer V × Frame V)
  | push v => (f.push v).map (.done, ·)
  | pop => f.pop.map fun r => (.value r.1, r.2)
  | popN n => (f.popN n).map fun r => (.values r.1, r.2)
  | peek => f.peek.map (.value ·, f)
  | getLocal slot => (f.getLocal slot).map (.value ·, f)
  | setLocal slot v => (f.setLocal slot v).map (.done, ·)
  | clearStack => .ok (.done, f.clearStack)
  | rewrite onLocal onStack => .ok (.done,
      { f with locals := f.locals.mapIdx onLocal, stack := f.stack.mapIdx onStack })
  | mergeFrom g => (f.mergeFrom g).map fun r => (.changed r.2, r.1)

/-- A step in place does what it does with values, and leaves the frame as it is if that fails. -/
theorem run_on (op : FrameStep V) : op.run.on f = settle f (op.outcome f) := by
  cases op with
  | push v =>
    rw [run, on_map_of_settle _ (push_on v)]
    exact congrArg (settle f) (comp_map _ _ (f.push v)).symm
  | pop => exact on_map_of_settle _ pop_on
  | popN n => exact on_map_of_settle _ (popN_on n)
  | peek =>
    rw [run, on_map_of_settle _ peek_on]
    exact congrArg (settle f) (comp_map _ _ f.peek).symm
  | getLocal slot =>
    rw [run, on_map_of_settle _ (getLocal_on slot)]
    exact congrArg (settle f) (comp_map _ _ (f.getLocal slot)).symm
  | setLocal slot v =>
    rw [run, on_map_of_settle _ (setLocal_on slot v)]
    exact congrArg (settle f) (comp_map _ _ (f.setLocal slot v)).symm
  | clearStack => rfl
  | rewrite onLocal onStack => rfl
  | mergeFrom g =>
    rw [run, on_map_of_settle _ (mergeFrom_on g)]
    exact congrArg (settle f) (comp_map _ _ (f.mergeFrom g)).symm

/-- Nothing but the frame itself comes of a failure. -/
theorem eq_of_run_error {op : FrameStep V} {e : FrameError} (h : op.run.on f = (.error e, g)) :
    g = f := by
  rw [run_on] at h
  cases hout : op.outcome f with
  | error e' =>
    rw [hout] at h
    exact (Prod.mk.inj h).2.symm
  | ok r =>
    rw [hout] at h
    cases (Prod.mk.inj h).1

theorem keeps_of_outcome {op : FrameStep V} {a : FrameAnswer V} (h : op.outcome f = .ok (a, g)) :
    f.Keeps g := by
  have frame_of_map : ∀ {α : Type} {x : Except FrameError α} {k : α → FrameAnswer V × Frame V},
      x.map k = .ok (a, g) → ∃ r, x = .ok r ∧ g = (k r).2 := by
    intro α x k hx
    cases x with
    | error e => cases hx
    | ok r => exact ⟨r, rfl, (congrArg Prod.snd (Except.ok.inj hx)).symm⟩
  cases op with
  | push v =>
    obtain ⟨g', hpush, rfl⟩ := frame_of_map h
    exact .push hpush
  | pop =>
    obtain ⟨⟨v, g'⟩, hpop, rfl⟩ := frame_of_map h
    exact .pop hpop
  | popN n =>
    obtain ⟨⟨vs, g'⟩, hpop, rfl⟩ := frame_of_map h
    exact .popN hpop
  | peek =>
    obtain ⟨v, -, rfl⟩ := frame_of_map h
    exact .refl _
  | getLocal slot =>
    obtain ⟨v, -, rfl⟩ := frame_of_map h
    exact .refl _
  | setLocal slot v =>
    obtain ⟨g', hset, rfl⟩ := frame_of_map h
    exact .setLocal hset
  | clearStack =>
    obtain ⟨-, rfl⟩ := Prod.mk.inj (Except.ok.inj h)
    exact .of_height_le rfl rfl (Nat.zero_le _)
  | rewrite onLocal onStack =>
    obtain ⟨-, rfl⟩ := Prod.mk.inj (Except.ok.inj h)
    exact .of_height_le List.length_mapIdx rfl (Nat.le_of_eq List.length_mapIdx)
  | mergeFrom k =>
    obtain ⟨⟨g', changed⟩, hmerge, rfl⟩ := frame_of_map h
    exact .mergeFrom hmerge

/-- Whether it succeeds or fails, a step keeps the sizes of the frame and the limit of its
stack. -/
theorem keeps (op : FrameStep V) (f : Frame V) : f.Keeps (op.run.on f).2 := by
  rw [run_on]
  cases houtcome : op.outcome f with
  | error e => exact .refl f
  | ok r => exact keeps_of_outcome houtcome

end FrameStep

/-! ## Commands -/

/-- The sizes that frames have been created with, after one more command. A copy has those of the
frame that it is a copy of. -/
def FrameCommand.created (sizes : String → Option FrameSize) :
    FrameCommand V → String → Option FrameSize
  | new x maxLocals maxStack _ => Function.update sizes x (some ⟨maxLocals, maxStack⟩)
  | copy x source => Function.update sizes x ((sizes source).or (sizes x))
  | merge _ _ | step _ _ => sizes

namespace FrameStore

open FrameCommand

variable {s s' : FrameStore V}

theorem put_same (s : FrameStore V) (x : String) (f : Frame V) : (s.put x f).frame? x = some f :=
  if_pos rfl

theorem put_other (s : FrameStore V) {x y : String} (f : Frame V) (h : y ≠ x) :
    (s.put x f).frame? y = s.frame? y :=
  if_neg h

theorem put_eq_self {x : String} (h : s.frame? x = some f) : s.put x f = s := by
  obtain ⟨frames⟩ := s
  refine congrArg FrameStore.mk (funext fun y => ?_)
  by_cases hy : y = x
  · rw [if_pos hy, hy, ← h]
  · rw [if_neg hy]

/-- The sizes of all frames. -/
def declared (s : FrameStore V) (x : String) : Option FrameSize :=
  (s.frame? x).map Frame.declared

/-- The stacks of all frames are within their limits. -/
def InLimit (s : FrameStore V) : Prop :=
  ∀ x f, s.frame? x = some f → f.InLimit

theorem declared_put (s : FrameStore V) (x : String) (f : Frame V) :
    (s.put x f).declared = Function.update s.declared x (some f.declared) := by
  funext y
  unfold declared
  by_cases hy : y = x
  · rw [hy, put_same, Function.update_self, Option.map_some]
  · rw [put_other s f hy, Function.update_of_ne hy]

theorem declared_put_self {x : String} (h : s.frame? x = some f) (hg : g.declared = f.declared) :
    (s.put x g).declared = s.declared := by
  have hx : s.declared x = some g.declared := by
    rw [declared, h, Option.map_some, hg]
  rw [declared_put, ← hx, Function.update_eq_self]

theorem InLimit.put (h : s.InLimit) (x : String) (hf : f.InLimit) : (s.put x f).InLimit := by
  intro y g hg
  by_cases hy : y = x
  · rw [hy, put_same] at hg
    exact Option.some.inj hg ▸ hf
  · rw [put_other s f hy] at hg
    exact h y g hg

variable [JoinSemilattice V] [DecidableEq V]

/-- What can come of a command. -/
inductive Obeyed (s : FrameStore V) (c : FrameCommand V) :
    Option (Except FrameError (FrameAnswer V)) × FrameStore V → Prop
  /-- A variable that is read has no frame. -/
  | nothing (hsizes : c.created s.declared = s.declared) : Obeyed s c (none, s)
  /-- A variable is given a new frame, or a copy. -/
  | created {x : String} {f : Frame V}
      (hsizes : c.created s.declared = Function.update s.declared x (some f.declared))
      (hlimit : s.InLimit → f.InLimit) : Obeyed s c (some (.ok .done), s.put x f)
  /-- A step is done with the frame of a variable. -/
  | changed {x : String} {f : Frame V} (op : FrameStep V) (hx : s.frame? x = some f)
      (hsizes : c.created s.declared = s.declared) :
      Obeyed s c (some (op.run.on f).1, s.put x (op.run.on f).2)

theorem Obeyed.change (c : FrameCommand V) (hsizes : c.created s.declared = s.declared)
    (x : String) (op : FrameStep V) : Obeyed s c (s.change x op) := by
  unfold FrameStore.change
  cases hx : s.frame? x with
  | none => exact .nothing hsizes
  | some f => exact .changed op hx hsizes

theorem obeyed_perform (s : FrameStore V) (c : FrameCommand V) : Obeyed s c (s.perform c) := by
  cases c with
  | new x maxLocals maxStack init =>
    have hnew : (Frame.new maxLocals maxStack init).declared = ⟨maxLocals, maxStack⟩ := by
      simp [Frame.declared, Frame.new]
    refine .created ?_ fun _ max _ => Nat.zero_le max
    rw [hnew, FrameCommand.created]
  | copy x source =>
    rw [perform]
    cases hsource : s.frame? source with
    | none =>
      refine .nothing ?_
      have hnone : s.declared source = none := by rw [declared, hsource, Option.map_none]
      rw [FrameCommand.created, hnone, Option.none_or, Function.update_eq_self]
    | some f =>
      refine .created ?_ fun h => h source f hsource
      have hsome : s.declared source = some f.declared := by
        rw [declared, hsource, Option.map_some]
      rw [FrameCommand.created, hsome, Option.some_or]
  | merge x other =>
    rw [perform]
    cases s.frame? other with
    | none => exact .nothing rfl
    | some g => exact .change _ rfl x _
  | step x op => exact .change _ rfl x op

theorem declared_perform (s : FrameStore V) (c : FrameCommand V) :
    (s.perform c).2.declared = c.created s.declared := by
  cases h : s.perform c with
  | mk answer s' =>
    have hobeyed := h ▸ obeyed_perform s c
    cases hobeyed with
    | nothing hsizes => exact hsizes.symm
    | created hsizes _ => rw [declared_put, hsizes]
    | changed op hx hsizes => rw [declared_put_self hx (op.keeps _).declared, hsizes]

theorem InLimit.perform (h : s.InLimit) (c : FrameCommand V) : (s.perform c).2.InLimit := by
  cases hperform : s.perform c with
  | mk answer s' =>
    have hobeyed := hperform ▸ obeyed_perform s c
    cases hobeyed with
    | nothing => exact h
    | created _ hlimit => exact h.put _ (hlimit h)
    | changed op hx _ => exact h.put _ ((op.keeps _).inLimit (h _ _ hx))

/-- A command that fails leaves all frames as they were. -/
theorem eq_of_perform_error {c : FrameCommand V} {e : FrameError}
    (h : s.perform c = (some (.error e), s')) : s' = s := by
  have hobeyed := h ▸ obeyed_perform s c
  generalize hanswer : some (Except.error e) = answer at hobeyed
  cases hobeyed with
  | nothing => rfl
  | created => cases hanswer
  | changed op hx _ =>
    have hsame : (op.run.on _).2 = _ :=
      FrameStep.eq_of_run_error (Prod.ext (Option.some.inj hanswer).symm rfl)
    rw [hsame, put_eq_self hx]

/-! ## Programs -/

theorem declared_run (s : FrameStore V) (program : List (FrameCommand V)) :
    (s.run program).declared = program.foldl FrameCommand.created s.declared := by
  induction program generalizing s with
  | nil => rfl
  | cons c program ih =>
    rw [List.foldl_cons, ← declared_perform]
    exact ih (s.perform c).2

theorem InLimit.run (h : s.InLimit) (program : List (FrameCommand V)) :
    (s.run program).InLimit := by
  induction program generalizing s with
  | nil => exact h
  | cons c program ih => exact ih (h.perform c)

/-- After any program, every frame has the sizes that it was created with, and a stack within its
limit; a command that fails changes no frame; and values that are taken off a stack at once are
those that single pops yield, the other way round. -/
theorem program_keeps (program : List (FrameCommand V)) :
    (∀ x, ((FrameStore.empty.run program).frame? x).map Frame.declared =
      program.foldl FrameCommand.created (fun _ => none) x) ∧
    (∀ x f max, (FrameStore.empty.run program).frame? x = some f → f.maxStack = some max →
      f.stackHeight ≤ max) ∧
    (∀ c e s', (FrameStore.empty.run program).perform c = (some (.error e), s') →
      s' = FrameStore.empty.run program) ∧
    ∀ (n : Nat) (f : Frame V),
      (n ≤ f.stackHeight → (InPlace.popN n).on f = (List.reverse <$> InPlace.pops n).on f) ∧
      (f.stackHeight < n → (InPlace.popN n).on f = (.error .stackUnderflow, f) ∧
        ((InPlace.pops n).on f).1 = .error .stackUnderflow) := by
  have hempty : (FrameStore.empty : FrameStore V).InLimit := nofun
  refine ⟨?_, ?_, ?_, ?_⟩
  · intro x
    exact congrFun (declared_run FrameStore.empty program) x
  · intro x f max hf
    exact hempty.run program x f hf max
  · intro c e s' h
    exact eq_of_perform_error h
  · intro n f
    exact ⟨InPlace.popN_on_eq_pops, InPlace.popN_on_of_lt⟩

/-- Frames of different sizes and limits; the second push is one too many, and so is the entry of
`b` for the last merge. -/
def twoFrames : List (FrameCommand Ownership) :=
  [.new "a" 1 (some 1) .unknown, .step "a" (.push .tracked), .step "a" (.push .released),
    .new "b" 2 none .released, .step "b" (.push .unknown), .merge "a" "b", .copy "c" "a",
    .step "b" (.push .unknown), .merge "c" "b"]

theorem program_keeps_of_twoFrames : ∃ f : Frame Ownership,
    (FrameStore.empty.run twoFrames).frame? "c" = some f ∧ f.declared = ⟨1, some 1⟩ ∧
      f.stackHeight ≤ 1 ∧ ((FrameStore.empty.run twoFrames).perform (.merge "c" "b")).2 =
        FrameStore.empty.run twoFrames ∧
      (InPlace.popN 1).on f = (List.reverse <$> InPlace.pops 1).on f := by
  obtain ⟨hdeclared, hlimit, herror, hpops⟩ := program_keeps twoFrames
  have hframe : (FrameStore.empty.run twoFrames).frame? "c" =
      some ⟨[.released], [.tracked], some 1⟩ := by decide
  have hmerge : ((FrameStore.empty.run twoFrames).perform (.merge "c" "b")).1 =
      some (.error (.heightMismatch 1 2)) := by rfl
  refine ⟨_, hframe, ?_, hlimit "c" _ 1 hframe rfl, herror _ _ _ (Prod.ext hmerge rfl),
    (hpops 1 _).1 (by decide)⟩
  have hc := hdeclared "c"
  rw [hframe] at hc
  exact Option.some.inj (hc.trans (by decide))

end FrameStore

end PoolLint.Flow

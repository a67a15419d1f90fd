import Mathlib.Data.List.Forall2
import PoolLint.Flow.Interpreter

/-!
# Executing an instruction in lockstep

An instruction moves values without looking at them, so two executions of it on frames of one
shape cannot be told apart by anything but the values. This file makes that precise: if two
frames are related place by place, and the new values that two interpreters supply are related
as well, then both executions fail with the same error or both succeed with related frames
(`Interpreter.execute_alike`).

Everything that compares an analysis with something else is an instance: merged frames against
the states of one path, one interpreter against another, values against their origins.
-/

namespace PoolLint.Flow

open PoolLint.Bytecode

/-! ## Computations that fail alike -/

/-- A sequence of two computations succeeds if both do. -/
theorem bind_eq_ok {ε α β : Type} {x : Except ε α} {f : α → Except ε β} {b : β} :
    x >>= f = .ok b ↔ ∃ a, x = .ok a ∧ f a = .ok b := by
  cases x with
  | error e =>
    constructor
    · intro h
      cases h
    · rintro ⟨a, ha, -⟩
      cases ha
  | ok a =>
    constructor
    · intro h
      exact ⟨a, rfl, h⟩
    · rintro ⟨a', ha, hb⟩
      cases ha
      exact hb

/-- Both computations fail with one error, or both succeed with related results. -/
def Alike {ε α β : Type} (Q : α → β → Prop) : Except ε α → Except ε β → Prop
  | .ok a, .ok b => Q a b
  | .error e, .error e' => e = e'
  | _, _ => False

namespace Alike

variable {ε α β α' β' : Type} {Q : α → β → Prop} {Q' : α' → β' → Prop}

theorem pure {a : α} {b : β} (h : Q a b) :
    Alike Q (Pure.pure a : Except ε α) (Pure.pure b) := h

theorem bind {x : Except ε α} {y : Except ε β} {f : α → Except ε α'} {g : β → Except ε β'}
    (h : Alike Q x y) (hnext : ∀ a b, Q a b → Alike Q' (f a) (g b)) :
    Alike Q' (x >>= f) (y >>= g) := by
  cases x with
  | error e =>
    cases y with
    | error e' => exact h
    | ok b => exact h.elim
  | ok a =>
    cases y with
    | error e' => exact h.elim
    | ok b => exact hnext a b h

/-- Whatever the first computation yields, the second one yields something related. -/
theorem exists_ok {x : Except ε α} {y : Except ε β} (h : Alike Q x y) {a : α}
    (hx : x = .ok a) : ∃ b, y = .ok b ∧ Q a b := by
  subst hx
  cases y with
  | error e => exact h.elim
  | ok b => exact ⟨b, rfl, h⟩

theorem symm {x : Except ε α} {y : Except ε β} (h : Alike Q x y) :
    Alike (fun b a => Q a b) y x := by
  cases x with
  | error e =>
    cases y with
    | error e' => exact Eq.symm h
    | ok b => exact h.elim
  | ok a =>
    cases y with
    | error e' => exact h.elim
    | ok b => exact h

theorem located {x : Except FrameError α} {y : Except FrameError β} (i : Nat)
    (h : Alike Q x y) : Alike Q (Flow.located i x) (Flow.located i y) := by
  cases x with
  | error e =>
    cases y with
    | error e' => exact congrArg (FlowError.frame i) h
    | ok b => exact h.elim
  | ok a =>
    cases y with
    | error e' => exact h.elim
    | ok b => exact h

end Alike

/-! ## Frames of one shape -/

variable {V W S T : Type} {m : Method}

/-- Both are frames of the method, with as many slots as it declares and its stack limit; their
stacks have one height, and their values are related place by place. -/
structure Frame.Related (m : Method) (R : V → W → Prop) (f : Frame V) (g : Frame W) : Prop where
  locals : List.Forall₂ R f.locals g.locals
  stack : List.Forall₂ R f.stack g.stack
  width : f.locals.length = m.maxLocals
  limit : f.maxStack = m.maxStack
  limit' : g.maxStack = m.maxStack

/-- Frames of the method with one height; nothing is said about values. -/
abbrev Frame.SameShape (m : Method) (f : Frame V) (g : Frame W) : Prop :=
  f.Related m (fun _ _ => True) g

/-- The shape is a matter of lengths. -/
theorem Frame.sameShape_of_length {f : Frame V} {g : Frame W}
    (hlocals : f.locals.length = g.locals.length) (hstack : f.stack.length = g.stack.length)
    (hwidth : f.locals.length = m.maxLocals) (hlimit : f.maxStack = m.maxStack)
    (hlimit' : g.maxStack = m.maxStack) : f.SameShape m g :=
  ⟨List.forall₂_iff_get.2 ⟨hlocals, fun _ _ _ => trivial⟩,
    List.forall₂_iff_get.2 ⟨hstack, fun _ _ _ => trivial⟩, hwidth, hlimit, hlimit'⟩

namespace Frame.Related

variable {R : V → W → Prop} {f : Frame V} {g : Frame W} {v : V} {w : W}

theorem mono {R' : V → W → Prop} (h : Related m R f g) (himp : ∀ v w, R v w → R' v w) :
    Related m R' f g :=
  ⟨h.locals.imp himp, h.stack.imp himp, h.width, h.limit, h.limit'⟩

theorem sameShape (h : Related m R f g) : f.SameShape m g :=
  h.mono fun _ _ _ => trivial

theorem flip (h : Related m R f g) : Related m (fun w v => R v w) g f :=
  ⟨h.locals.flip, h.stack.flip, h.locals.length_eq ▸ h.width, h.limit', h.limit⟩

theorem left (h : Related m R f g) : f.SameShape m f :=
  ⟨List.forall₂_same.2 fun _ _ => trivial, List.forall₂_same.2 fun _ _ => trivial, h.width,
    h.limit, h.limit⟩

theorem right (h : Related m R f g) : g.SameShape m g :=
  h.flip.left

theorem trans {X : Type} {R' : W → X → Prop} {k : Frame X} (h : Related m R f g)
    (h' : Related m R' g k) : f.SameShape m k :=
  sameShape_of_length (h.locals.length_eq.trans h'.locals.length_eq)
    (h.stack.length_eq.trans h'.stack.length_eq) h.width h.limit h'.limit'

/-- Empty stacks over the slots of the method. -/
theorem new (h : R v w) : Related m R (Frame.new m.maxLocals m.maxStack v)
    (Frame.new m.maxLocals m.maxStack w) := by
  refine ⟨?_, .nil, List.length_replicate, rfl, rfl⟩
  simp only [Frame.new]
  induction m.maxLocals with
  | zero => exact .nil
  | succ n ih =>
    rw [List.replicate_succ, List.replicate_succ]
    exact .cons h ih

theorem map {R' : V → W → Prop} {k : W → W} (h : Related m R f g)
    (hk : ∀ v w, R v w → R' v (k w)) : Related m R' f (g.map k) := by
  have hall : ∀ {vs : List V} {ws : List W}, List.Forall₂ R vs ws →
      List.Forall₂ R' vs (ws.map k) := by
    intro vs ws hvs
    exact List.forall₂_map_right_iff.2 (hvs.imp hk)
  exact ⟨hall h.locals, hall h.stack, h.width, h.limit, h.limit'⟩

theorem clearStack (h : Related m R f g) : Related m R f.clearStack g.clearStack :=
  ⟨h.locals, .nil, h.width, h.limit, h.limit'⟩

theorem exhausted?_eq (h : Related m R f g) : f.exhausted? = g.exhausted? := by
  unfold Frame.exhausted?
  rw [h.limit, h.limit', h.stack.length_eq]

theorem push (h : Related m R f g) (hv : R v w) :
    Alike (Related m R) (f.push v) (g.push w) := by
  unfold Frame.push
  rw [h.exhausted?_eq]
  cases g.exhausted? with
  | some max => exact rfl
  | none => exact ⟨h.locals, .cons hv h.stack, h.width, h.limit, h.limit'⟩

theorem pop (h : Related m R f g) :
    Alike (fun a b => R a.1 b.1 ∧ Related m R a.2 b.2) f.pop g.pop := by
  obtain ⟨locals, stack, maxStack⟩ := f
  obtain ⟨locals', stack', maxStack'⟩ := g
  cases h.stack with
  | nil => exact rfl
  | cons hv hrest => exact ⟨hv, h.locals, hrest, h.width, h.limit, h.limit'⟩

theorem popN (h : Related m R f g) (n : Nat) :
    Alike (fun a b => List.Forall₂ R a.1 b.1 ∧ Related m R a.2 b.2) (f.popN n) (g.popN n) := by
  unfold Frame.popN
  rw [h.stack.length_eq]
  by_cases hn : n ≤ g.stack.length
  · rw [if_pos hn, if_pos hn]
    have hargs := List.forall₂_take n h.stack
    have hrest := List.forall₂_drop n h.stack
    exact ⟨List.rel_reverse hargs, h.locals, hrest, h.width, h.limit, h.limit'⟩
  · rw [if_neg hn, if_neg hn]
    exact rfl

theorem peek (h : Related m R f g) : Alike R f.peek g.peek := by
  obtain ⟨locals, stack, maxStack⟩ := f
  obtain ⟨locals', stack', maxStack'⟩ := g
  cases h.stack with
  | nil => exact rfl
  | cons hv hrest => exact hv

theorem getLocal (h : Related m R f g) (slot : Nat) :
    Alike R (f.getLocal slot) (g.getLocal slot) := by
  unfold Frame.getLocal
  by_cases hslot : slot < f.locals.length
  · have hslot' : slot < g.locals.length := h.locals.length_eq ▸ hslot
    rw [List.getElem?_eq_getElem hslot, List.getElem?_eq_getElem hslot']
    exact h.locals.get hslot hslot'
  · have hslot' : ¬slot < g.locals.length := h.locals.length_eq ▸ hslot
    rw [List.getElem?_eq_none (Nat.le_of_not_lt hslot),
      List.getElem?_eq_none (Nat.le_of_not_lt hslot'), h.locals.length_eq]
    exact rfl

/-- Writing related values to one place keeps lists related. -/
theorem forall₂_set {as : List V} {bs : List W} (h : List.Forall₂ R as bs) (i : Nat)
    (hvw : R v w) : List.Forall₂ R (as.set i v) (bs.set i w) := by
  induction h generalizing i with
  | nil => exact .nil
  | cons hhead htail ih =>
    cases i with
    | zero => exact .cons hvw htail
    | succ i => exact .cons hhead (ih i)

theorem setLocal (h : Related m R f g) (slot : Nat) (hv : R v w) :
    Alike (Related m R) (f.setLocal slot v) (g.setLocal slot w) := by
  unfold Frame.setLocal
  rw [h.locals.length_eq]
  by_cases hslot : slot < g.locals.length
  · rw [if_pos hslot, if_pos hslot]
    have hwidth : (f.locals.set slot v).length = m.maxLocals := by
      rw [List.length_set, h.width]
    exact ⟨forall₂_set h.locals slot hv, h.stack, hwidth, h.limit, h.limit'⟩
  · rw [if_neg hslot, if_neg hslot]
    exact rfl

end Frame.Related

/-! ## Instructions -/

namespace Interpreter

variable {I : Interpreter V S} {J : Interpreter W T} {R : V → W → Prop}
  {f : Frame V} {g : Frame W} {s : S} {t : T} {i : Nat}

/-- Outcomes of executions with related frames; the records are not compared. -/
def SameFrames (m : Method) (R : V → W → Prop) (a : S × Frame V) (b : T × Frame W) : Prop :=
  a.2.Related m R b.2

/-- What two interpreters have to agree on at a call of `argCount` arguments. The results count
only if the call pushes them. -/
def CallsAlike (m : Method) (I : Interpreter V S) (J : Interpreter W T) (R : V → W → Prop)
    (s : S) (t : T) (i : Nat) (call : CallSite) (argCount : Nat) (f : Frame V) (g : Frame W) :
    Prop :=
  ∀ args f' args' g', f.popN argCount = .ok (args, f') → g.popN argCount = .ok (args', g') →
    List.Forall₂ R args args' → f'.Related m R g' →
      (call.returnsValue → R (I.call s i call args f').2.1 (J.call t i call args' g').2.1) ∧
        (I.call s i call args f').2.2.Related m R (J.call t i call args' g').2.2

theorem pushFresh_alike {instr : Instruction}
    (hfresh : R (I.fresh s i instr).2 (J.fresh t i instr).2) (h : f.Related m R g) :
    Alike (SameFrames m R) (I.pushFresh s i instr f) (J.pushFresh t i instr g) := by
  unfold pushFresh
  exact (h.push hfresh).bind fun a b hab => .pure hab

theorem invoke_alike {call : CallSite} {argCount : Nat}
    (hcall : CallsAlike m I J R s t i call argCount f g) (h : f.Related m R g) :
    Alike (SameFrames m R) (I.invoke s i call argCount f) (J.invoke t i call argCount g) := by
  unfold invoke
  -- the stacks have one height, so the arguments are there on both sides or on neither
  have hpop := h.popN argCount
  cases hf : f.popN argCount with
  | error e =>
    cases hg : g.popN argCount with
    | error e' =>
      rw [hf, hg] at hpop
      exact hpop
    | ok b =>
      rw [hf, hg] at hpop
      exact hpop.elim
  | ok a =>
    cases hg : g.popN argCount with
    | error e' =>
      rw [hf, hg] at hpop
      exact hpop.elim
    | ok b =>
      rw [hf, hg] at hpop
      have hresult := hcall a.1 a.2 b.1 b.2 hf hg hpop.1 hpop.2
      simp only [bind, Except.bind]
      by_cases hreturns : call.returnsValue
      · rw [if_pos hreturns, if_pos hreturns]
        exact (hresult.2.push (hresult.1 hreturns)).bind fun _ _ hab => .pure hab
      · rw [if_neg hreturns, if_neg hreturns]
        exact hresult.2

/-- The moves of an instruction other than a call. -/
theorem effect_alike (instr : Instruction)
    (hfresh : R (I.fresh s i instr).2 (J.fresh t i instr).2) (h : f.Related m R g) :
    Alike (SameFrames m R) (I.effect s i instr f) (J.effect t i instr g) := by
  cases instr with
  | nop | goto | ret | invoke => exact h
  | const | new => exact pushFresh_alike hfresh h
  | load slot =>
    exact (h.getLocal slot).bind fun _ _ hv => (h.push hv).bind fun _ _ hab => .pure hab
  | store slot =>
    exact h.pop.bind fun _ _ hv => (hv.2.setLocal slot hv.1).bind fun _ _ hab => .pure hab
  | dup => exact h.peek.bind fun _ _ hv => (h.push hv).bind fun _ _ hab => .pure hab
  | pop | ifZero | switch | throw => exact h.pop.bind fun _ _ hv => .pure hv.2
  | ifCmp => exact (h.popN 2).bind fun _ _ hv => .pure hv.2
  | swap =>
    exact h.pop.bind fun _ _ htop => htop.2.pop.bind fun _ _ hbelow =>
      (hbelow.2.push htop.1).bind fun _ _ hab => (hab.push hbelow.1).bind fun _ _ hab' =>
        .pure hab'
  | checkCast => exact h.peek.bind fun _ _ _ => .pure h
  | getField field isStatic =>
    cases isStatic with
    | true => exact pushFresh_alike hfresh h
    | false => exact h.pop.bind fun _ _ hv => pushFresh_alike hfresh hv.2
  | putField field isStatic =>
    cases isStatic with
    | true => exact h.pop.bind fun _ _ hv => .pure hv.2
    | false => exact h.pop.bind fun _ _ hv => hv.2.pop.bind fun _ _ hv' => .pure hv'.2
  | arrayLoad | binary => exact (h.popN 2).bind fun _ _ hv => pushFresh_alike hfresh hv.2
  | arrayStore =>
    exact h.pop.bind fun _ _ hv => (hv.2.popN 2).bind fun _ _ hv' => .pure hv'.2
  | unary => exact h.pop.bind fun _ _ hv => pushFresh_alike hfresh hv.2
  | retValue => exact h.pop.bind fun _ _ hv => .pure hv.2

/-- Executions on related frames fail alike or yield related frames. -/
theorem execute_alike (instr : Instruction)
    (hfresh : R (I.fresh s i instr).2 (J.fresh t i instr).2)
    (hcall : ∀ call argCount, instr = .invoke call → call.argCount? = some argCount →
      CallsAlike m I J R s t i call argCount f g)
    (h : f.Related m R g) :
    Alike (SameFrames m R) (I.execute s i instr f) (J.execute t i instr g) := by
  by_cases hinvoke : ∃ call, instr = .invoke call
  · obtain ⟨call, rfl⟩ := hinvoke
    simp only [execute]
    cases hcount : call.argCount? with
    | none => exact rfl
    | some argCount =>
      exact (invoke_alike (hcall call argCount rfl hcount) h).located i
  -- every other instruction is executed by its effect
  · have hlocated := (effect_alike instr hfresh h).located i
    cases instr with
    | invoke call => exact absurd ⟨call, rfl⟩ hinvoke
    | _ => exact hlocated

/-- Calls leave stack and slots their size. -/
def KeepsShape (I : Interpreter V S) : Prop :=
  ∀ m s i call args (f : Frame V), f.SameShape m f → f.SameShape m (I.call s i call args f).2.2

/-- Calls leave a frame the number of its slots and the height of its stack. -/
structure KeepsSize (I : Interpreter V S) : Prop where
  slots : ∀ s i call args (f : Frame V),
    (I.call s i call args f).2.2.locals.length = f.locals.length
  stack : ∀ s i call args (f : Frame V),
    (I.call s i call args f).2.2.stackHeight = f.stackHeight

/-- Calls leave a frame the limit of its stack. They need not, even if they leave it its size,
since they may put another frame in its place. -/
def KeepsLimit (I : Interpreter V S) : Prop :=
  ∀ s i call args (f : Frame V), (I.call s i call args f).2.2.maxStack = f.maxStack

theorem KeepsSize.keepsShape (h : I.KeepsSize) (hlimit : I.KeepsLimit) : I.KeepsShape := by
  intro m s i call args f hf
  have hslots := h.slots s i call args f
  have hstack := h.stack s i call args f
  exact Frame.sameShape_of_length hslots.symm hstack.symm hf.width hf.limit
    ((hlimit s i call args f).trans hf.limit)

/-- From frames of one shape, executions fail alike or yield frames of one shape. -/
theorem execute_sameShape (hI : I.KeepsShape) (hJ : J.KeepsShape) (instr : Instruction)
    (h : f.Related m R g) :
    Alike (SameFrames m (fun _ _ => True)) (I.execute s i instr f) (J.execute t i instr g) := by
  refine execute_alike instr trivial ?_ h.sameShape
  intro call argCount _ _ args f' args' g' _ _ _ hfg
  have hf' := hI m s i call args f' hfg.left
  have hg' := hJ m t i call args' g' hfg.right
  exact ⟨fun _ => trivial, (hf'.flip.trans hfg).trans hg'⟩

/-- Handlers are entered from related frames alike. -/
theorem handlerEntry_alike (hnew : R (I.newValue s) (J.newValue t)) (h : f.Related m R g) :
    Alike (Frame.Related m R) (I.handlerEntry s f) (J.handlerEntry t g) :=
  h.clearStack.push hnew

end Interpreter
end PoolLint.Flow

import PoolLint.Proofs.Flow.Lockstep

/-!
# Executions without a stack limit

The limit of a frame decides whether a value can be pushed, and nothing else: what succeeds under a
limit succeeds without one and yields the same values (`Interpreter.execute_unlimited`). So two
executions under different limits can be compared once both are known to succeed.
-/

namespace PoolLint.Flow

open PoolLint.Bytecode

/-- If the first computation succeeds, then so does the second one, with a related result. -/
def Carries {ε α β : Type} (Q : α → β → Prop) (x : Except ε α) (y : Except ε β) : Prop :=
  ∀ a, x = .ok a → ∃ b, y = .ok b ∧ Q a b

namespace Carries

variable {ε α β α' β' : Type} {Q : α → β → Prop} {Q' : α' → β' → Prop}

theorem pure {a : α} {b : β} (h : Q a b) :
    Carries Q (Pure.pure a : Except ε α) (Pure.pure b) := by
  intro a' ha
  obtain rfl : a = a' := Except.ok.inj ha
  exact ⟨b, rfl, h⟩

theorem error (e : ε) (y : Except ε β) : Carries Q (.error e) y := by
  intro a ha
  cases ha

theorem bind {x : Except ε α} {y : Except ε β} {f : α → Except ε α'} {g : β → Except ε β'}
    (h : Carries Q x y) (hnext : ∀ a b, Q a b → Carries Q' (f a) (g b)) :
    Carries Q' (x >>= f) (y >>= g) := by
  intro c hc
  obtain ⟨a, ha, hfa⟩ := bind_eq_ok.1 hc
  obtain ⟨b, hb, hab⟩ := h a ha
  obtain ⟨d, hd, hcd⟩ := hnext a b hab c hfa
  exact ⟨d, bind_eq_ok.2 ⟨b, hb, hd⟩, hcd⟩

theorem located {x : Except FrameError α} {y : Except FrameError β} (i : Nat)
    (h : Carries Q x y) : Carries Q (Flow.located i x) (Flow.located i y) := by
  intro a ha
  cases x with
  | error e => cases ha
  | ok a' =>
    obtain ⟨b, hb, hab⟩ := h a' rfl
    rw [← Except.ok.inj ha, hb]
    exact ⟨b, rfl, hab⟩

end Carries

variable {V S : Type}

/-! ## Frames -/

namespace Frame

/-- The frame without its limit. -/
def unlimited (f : Frame V) : Frame V :=
  { f with maxStack := none }

theorem push_unlimited (f : Frame V) (v : V) :
    Carries (fun a b => b = a.unlimited) (f.push v) (f.unlimited.push v) := by
  intro g hg
  refine ⟨g.unlimited, ?_, rfl⟩
  unfold push at hg
  cases hroom : f.exhausted? with
  | some max =>
    rw [hroom] at hg
    cases hg
  | none =>
    rw [hroom] at hg
    rw [← Except.ok.inj hg]
    rfl

theorem pop_unlimited (f : Frame V) :
    Carries (fun a b => b = (a.1, a.2.unlimited)) f.pop f.unlimited.pop := by
  obtain ⟨locals, stack, limit⟩ := f
  cases stack with
  | nil => exact .error _ _
  | cons v rest => exact .pure rfl

theorem popN_unlimited (f : Frame V) (n : Nat) :
    Carries (fun a b => b = (a.1, a.2.unlimited)) (f.popN n) (f.unlimited.popN n) := by
  have hsame : f.unlimited.stack = f.stack := rfl
  unfold popN
  rw [hsame]
  split_ifs
  · exact .pure rfl
  · exact .error _ _

theorem setLocal_unlimited (f : Frame V) (slot : Nat) (v : V) :
    Carries (fun a b => b = a.unlimited) (f.setLocal slot v) (f.unlimited.setLocal slot v) := by
  have hsame : f.unlimited.locals = f.locals := rfl
  unfold setLocal
  rw [hsame]
  split_ifs
  · exact .pure rfl
  · exact .error _ _

theorem peek_unlimited (f : Frame V) : Carries Eq f.peek f.unlimited.peek :=
  fun v hv => ⟨v, hv, rfl⟩

theorem getLocal_unlimited (f : Frame V) (slot : Nat) :
    Carries Eq (f.getLocal slot) (f.unlimited.getLocal slot) :=
  fun v hv => ⟨v, hv, rfl⟩

end Frame

/-! ## Instructions -/

namespace Interpreter

variable {I : Interpreter V S} {f : Frame V} {s : S} {i : Nat}

/-- Outcomes with one frame but for its limit; the records are not compared. -/
def SameUnlimited (a b : S × Frame V) : Prop :=
  b.2 = a.2.unlimited

/-- Calls do not look at the limit of the frame. -/
def CallsUnlimited (I : Interpreter V S) : Prop :=
  ∀ s i call args (f : Frame V),
    (I.call s i call args f.unlimited).2.1 = (I.call s i call args f).2.1 ∧
      (I.call s i call args f.unlimited).2.2 = (I.call s i call args f).2.2.unlimited

theorem pushFresh_unlimited (s : S) (i : Nat) (instr : Instruction) (f : Frame V) :
    Carries SameUnlimited (I.pushFresh s i instr f) (I.pushFresh s i instr f.unlimited) :=
  (f.push_unlimited _).bind fun _ _ hab => .pure hab

theorem invoke_unlimited (hI : I.CallsUnlimited) (s : S) (i : Nat) (call : CallSite)
    (argCount : Nat) (f : Frame V) :
    Carries SameUnlimited (I.invoke s i call argCount f)
      (I.invoke s i call argCount f.unlimited) := by
  unfold invoke
  refine (f.popN_unlimited argCount).bind ?_
  rintro ⟨args, k⟩ _ rfl
  obtain ⟨hresult, hframe⟩ := hI s i call args k
  simp only [hresult, hframe]
  split_ifs
  · exact (Frame.push_unlimited _ _).bind fun _ _ hab => .pure hab
  · exact .pure rfl

theorem effect_unlimited (s : S) (i : Nat) (instr : Instruction) (f : Frame V) :
    Carries SameUnlimited (I.effect s i instr f) (I.effect s i instr f.unlimited) := by
  cases instr with
  | nop | goto | ret | invoke => exact .pure rfl
  | const | new => exact pushFresh_unlimited s i _ f
  | load slot =>
    refine (f.getLocal_unlimited slot).bind ?_
    rintro v _ rfl
    exact (f.push_unlimited v).bind fun _ _ hab => .pure hab
  | store slot =>
    refine f.pop_unlimited.bind ?_
    rintro ⟨v, k⟩ _ rfl
    exact (k.setLocal_unlimited slot v).bind fun _ _ hab => .pure hab
  | dup =>
    refine f.peek_unlimited.bind ?_
    rintro v _ rfl
    exact (f.push_unlimited v).bind fun _ _ hab => .pure hab
  | pop | ifZero | switch | throw | retValue =>
    refine f.pop_unlimited.bind ?_
    rintro ⟨v, k⟩ _ rfl
    exact .pure rfl
  | ifCmp =>
    refine (f.popN_unlimited 2).bind ?_
    rintro ⟨vs, k⟩ _ rfl
    exact .pure rfl
  | swap =>
    refine f.pop_unlimited.bind ?_
    rintro ⟨top, k⟩ _ rfl
    refine k.pop_unlimited.bind ?_
    rintro ⟨below, k'⟩ _ rfl
    refine (k'.push_unlimited top).bind ?_
    rintro k'' _ rfl
    exact (k''.push_unlimited below).bind fun _ _ hab => .pure hab
  | checkCast =>
    refine f.peek_unlimited.bind ?_
    rintro v _ rfl
    exact .pure rfl
  | getField field isStatic =>
    cases isStatic with
    | true => exact pushFresh_unlimited s i _ f
    | false =>
      refine f.pop_unlimited.bind ?_
      rintro ⟨v, k⟩ _ rfl
      exact pushFresh_unlimited s i _ k
  | putField field isStatic =>
    refine f.pop_unlimited.bind ?_
    rintro ⟨v, k⟩ _ rfl
    cases isStatic with
    | true => exact .pure rfl
    | false =>
      refine k.pop_unlimited.bind ?_
      rintro ⟨v', k'⟩ _ rfl
      exact .pure rfl
  | arrayLoad | binary =>
    refine (f.popN_unlimited 2).bind ?_
    rintro ⟨vs, k⟩ _ rfl
    exact pushFresh_unlimited s i _ k
  | arrayStore =>
    refine f.pop_unlimited.bind ?_
    rintro ⟨v, k⟩ _ rfl
    refine (k.popN_unlimited 2).bind ?_
    rintro ⟨vs, k'⟩ _ rfl
    exact .pure rfl
  | unary =>
    refine f.pop_unlimited.bind ?_
    rintro ⟨v, k⟩ _ rfl
    exact pushFresh_unlimited s i _ k

/-- What succeeds under a limit succeeds without one, and yields the same values. -/
theorem execute_unlimited (hI : I.CallsUnlimited) (s : S) (i : Nat) (instr : Instruction)
    (f : Frame V) :
    Carries SameUnlimited (I.execute s i instr f) (I.execute s i instr f.unlimited) := by
  by_cases hinvoke : ∃ call, instr = .invoke call
  · obtain ⟨call, rfl⟩ := hinvoke
    simp only [execute]
    cases call.argCount? with
    | none => exact .error _ _
    | some argCount => exact (invoke_unlimited hI s i call argCount f).located i
  -- every other instruction is executed by its effect
  · have hlocated := (effect_unlimited (I := I) s i instr f).located i
    cases instr with
    | invoke call => exact absurd ⟨call, rfl⟩ hinvoke
    | _ => exact hlocated

end Interpreter
end PoolLint.Flow

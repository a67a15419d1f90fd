import PoolLint.Proofs.Bytecode.DescriptorGrammar
import PoolLint.Proofs.Flow.Declaration
import PoolLint.Proofs.Flow.FrameTable
import PoolLint.Proofs.Flow.Survey

/-!
# Stack heights

Whether an instruction can be executed depends on the height of the stack and on the declared
sizes of the frame, and so does the height after it. Both are read off a table of stack effects
(`Instruction.Takes`, `Instruction.leaves`), which is compared with what interpreters do in
`Interpreter.execute_exactly`. For calls it is the grammar of descriptors that stands in the table.

A method is consistent if heights can be assigned to its reachable instructions in such a way
that every instruction can be executed at its height and edges agree with the heights at their
ends (`StackConsistent`). The methods whose analysis succeeds are those that are well declared
and consistent: heights that are found can be read off the table (`consistent_of_analyzes`), and
from heights that are given no visit can fail (`ends_ok_of_consistent`).
-/

namespace PoolLint

open PoolLint.Bytecode

/-! ## Stack effects -/

namespace Bytecode.Instruction

/-- The instruction takes this many entries off the stack; there is no such number for a call with
a malformed descriptor. -/
def Takes (count : Nat) : Instruction → Prop
  | nop | const _ | load _ | new _ | goto _ | ret => count = 0
  | store _ | dup | pop | checkCast _ | unary _ | ifZero _ | switch _ _ | retValue | throw =>
    count = 1
  | swap | arrayLoad | binary _ | ifCmp _ => count = 2
  | arrayStore => count = 3
  | getField _ isStatic => count = if isStatic then 0 else 1
  | putField _ isStatic => count = if isStatic then 1 else 2
  | invoke call => call.Takes count

/-- The number of entries that the instruction then puts on the stack. -/
@[simp]
def leaves : Instruction → Nat
  | const _ | load _ | new _ | checkCast _ | getField _ _ | arrayLoad | unary _ | binary _ => 1
  | dup | swap => 2
  | invoke call => if [')', 'V'] <:+ call.desc.toList then 0 else 1
  | _ => 0

/-- Whether the instruction pushes anything; a checked cast leaves the stack alone. -/
@[simp]
def pushes : Instruction → Bool
  | checkCast _ => false
  | instr => decide (0 < instr.leaves)

/-- The local slot that the instruction reads or writes. -/
@[simp]
def slot? : Instruction → Option Nat
  | load slot | store slot => some slot
  | _ => none

/-- The stack is of the second height after the instruction if it is of the first one before. -/
def HeightAfter (instr : Instruction) (height after : Nat) : Prop :=
  ∃ count, instr.Takes count ∧ after = height - count + instr.leaves

section HeightAfter

variable {instr : Instruction} {count count' height after after' : Nat}

theorem Takes.unique (h : instr.Takes count) (h' : instr.Takes count') : count = count' := by
  cases instr with
  | invoke call => exact CallSite.Takes.unique h h'
  | _ => exact Eq.trans h (Eq.symm h')

theorem HeightAfter.eq (h : instr.HeightAfter height after) (hcount : instr.Takes count) :
    after = height - count + instr.leaves := by
  obtain ⟨count', hcount', heq⟩ := h
  rw [heq, hcount.unique hcount']

theorem HeightAfter.unique (h : instr.HeightAfter height after)
    (h' : instr.HeightAfter height after') : after = after' := by
  obtain ⟨count, hcount, heq⟩ := h
  rw [heq, h'.eq hcount]

end HeightAfter

/-- Whether control can never go on with the next instruction. -/
@[simp]
def diverts : Instruction → Bool
  | goto _ | switch _ _ | ret | retValue | throw => true
  | _ => false

/-- After instruction `i` control may go on at `j`. -/
def GoesOn (instr : Instruction) (i j : Nat) : Prop :=
  instr.JumpsTo j ∨ instr.diverts = false ∧ j = i + 1

end Bytecode.Instruction

/-- A stack of this height is within the declared limit. -/
def Bytecode.Method.HasRoom (m : Method) (height : Nat) : Prop :=
  ∀ max, m.maxStack = some max → height ≤ max

/-- The instruction can be executed on a stack of this height: its operands are there, which for
a call takes a well-formed descriptor, its slot is declared, and what it pushes fits. -/
structure Bytecode.Instruction.Fits (m : Method) (instr : Instruction) (height : Nat) : Prop where
  operands : ∃ count, instr.Takes count ∧ count ≤ height
  slot : ∀ slot, instr.slot? = some slot → slot < m.maxLocals
  room : instr.pushes = true → ∀ after, instr.HeightAfter height after → m.HasRoom after

namespace Flow

variable {V S : Type} {m : Method} {height : Nat}

theorem HasRoom.mono {k : Nat} (h : m.HasRoom height) (hk : k ≤ height) : m.HasRoom k :=
  fun max hmax => Nat.le_trans hk (h max hmax)

/-! ## Computations that succeed under a condition -/

/-- The computation succeeds exactly under the condition `pre`, and its result satisfies
`post`. -/
structure Exactly {ε α : Type} (x : Except ε α) (pre : Prop) (post : α → Prop) : Prop where
  succeeds : pre → ∃ a, x = .ok a
  holds : ∀ {a}, x = .ok a → pre ∧ post a

namespace Exactly

variable {ε α β : Type} {x : Except ε α} {pre pre' : Prop} {post post' : α → Prop}

theorem ok {a : α} (hpre : pre) (hpost : post a) : Exactly (.ok a : Except ε α) pre post := by
  refine ⟨fun _ => ⟨a, rfl⟩, ?_⟩
  intro b hb
  obtain rfl := Except.ok.inj hb
  exact ⟨hpre, hpost⟩

theorem error {e : ε} (hpre : ¬pre) : Exactly (.error e : Except ε α) pre post :=
  ⟨fun h => absurd h hpre, nofun⟩

theorem pure {a : α} (h : post a) : Exactly (Pure.pure a : Except ε α) True post :=
  ok trivial h

theorem bind {f : α → Except ε β} {pre₂ : Prop} {post₂ : β → Prop} (hx : Exactly x pre post)
    (hf : ∀ a, post a → Exactly (f a) pre₂ post₂) : Exactly (x >>= f) (pre ∧ pre₂) post₂ := by
  refine ⟨?_, ?_⟩
  · rintro ⟨hpre, hpre₂⟩
    obtain ⟨a, rfl⟩ := hx.succeeds hpre
    obtain ⟨b, hb⟩ := (hf a (hx.holds rfl).2).succeeds hpre₂
    exact ⟨b, hb⟩
  · intro b hb
    obtain ⟨a, ha, hfa⟩ := bind_eq_ok.1 hb
    obtain ⟨hpre, hpost⟩ := hx.holds ha
    obtain ⟨hpre₂, hpost₂⟩ := (hf a hpost).holds hfa
    exact ⟨⟨hpre, hpre₂⟩, hpost₂⟩

/-- The condition may be told differently, and the result described less precisely. -/
theorem mono (h : Exactly x pre post) (hpre : pre' ↔ pre) (hpost : ∀ a, pre → post a → post' a) :
    Exactly x pre' post' :=
  ⟨fun hp => h.succeeds (hpre.1 hp), fun ha => ⟨hpre.2 (h.holds ha).1,
    hpost _ (h.holds ha).1 (h.holds ha).2⟩⟩

theorem located {x : Except FrameError α} (h : Exactly x pre post) (i : Nat) :
    Exactly (Flow.located i x) pre post := by
  refine ⟨?_, ?_⟩
  · intro hpre
    obtain ⟨a, rfl⟩ := h.succeeds hpre
    exact ⟨a, rfl⟩
  · intro a ha
    cases x with
    | error e => cases ha
    | ok b =>
      obtain rfl := Except.ok.inj ha
      exact h.holds rfl

end Exactly

/-! ## Frame operations -/

/-- A frame of the method with a stack of this height, which is within the declared limit. -/
structure Frame.Sized (m : Method) (height : Nat) (f : Frame V) : Prop where
  width : f.locals.length = m.maxLocals
  limit : f.maxStack = m.maxStack
  stack : f.stack.length = height
  room : m.HasRoom height

/-- The frame that comes with a result has this size. -/
def Frame.SizedAfter {α : Type} (m : Method) (height : Nat) (r : α × Frame V) : Prop :=
  r.2.Sized m height

/-- The frame that comes with a result has the height that the instruction leads to. -/
def Frame.SizedBy {α : Type} (m : Method) (instr : Instruction) (height : Nat)
    (r : α × Frame V) : Prop :=
  ∃ after, instr.HeightAfter height after ∧ r.2.Sized m after

namespace Frame.Sized

variable {f : Frame V}

theorem sameShape (h : f.Sized m height) : f.SameShape m f :=
  ⟨List.forall₂_same.2 fun _ _ => trivial, List.forall₂_same.2 fun _ _ => trivial, h.width,
    h.limit, h.limit⟩

theorem of_eq {k : Nat} (h : f.Sized m height) (hk : height = k) : f.Sized m k :=
  hk ▸ h

/-- Whatever has the same shape has the same size. -/
theorem of_sameShape {W : Type} {g : Frame W} (h : f.Sized m height) (hfg : f.SameShape m g) :
    g.Sized m height :=
  ⟨hfg.locals.length_eq ▸ h.width, hfg.limit', hfg.stack.length_eq ▸ h.stack, h.room⟩

theorem new (v : V) : (Frame.new m.maxLocals m.maxStack v).Sized m 0 :=
  ⟨List.length_replicate, rfl, rfl, fun _ _ => Nat.zero_le _⟩

theorem clearStack (h : f.Sized m height) : f.clearStack.Sized m 0 :=
  ⟨h.width, h.limit, rfl, fun _ _ => Nat.zero_le _⟩

theorem exhausted?_eq_none (h : f.Sized m height) :
    f.exhausted? = none ↔ m.HasRoom (height + 1) := by
  unfold Frame.exhausted? Method.HasRoom
  rw [h.limit, h.stack]
  cases m.maxStack with
  | none => simp
  | some max =>
    simp only [Option.filter_eq_none_iff, Option.some.injEq, forall_eq', decide_eq_true_eq]
    omega

theorem push (h : f.Sized m height) (v : V) :
    Exactly (f.push v) (m.HasRoom (height + 1)) (Sized m (height + 1)) := by
  have hroom := h.exhausted?_eq_none
  unfold Frame.push
  cases hfull : f.exhausted? with
  | none =>
    have hroom' := hroom.1 hfull
    exact .ok hroom' ⟨h.width, h.limit, by simp [h.stack], hroom'⟩
  | some max => exact .error fun hroom' => by simp [hroom.2 hroom'] at hfull

theorem pop (h : f.Sized m height) :
    Exactly f.pop (1 ≤ height) (SizedAfter m (height - 1)) := by
  have hheight := h.stack
  unfold Frame.pop
  cases hstack : f.stack with
  | nil =>
    rw [hstack, List.length_nil] at hheight
    exact .error (by omega)
  | cons v rest =>
    rw [hstack, List.length_cons] at hheight
    have hrest : rest.length = height - 1 := by omega
    exact .ok (by omega) ⟨h.width, h.limit, hrest, HasRoom.mono h.room (by omega)⟩

theorem popN (h : f.Sized m height) (count : Nat) :
    Exactly (f.popN count) (count ≤ height) (SizedAfter m (height - count)) := by
  unfold Frame.popN
  rw [h.stack]
  by_cases hle : count ≤ height
  · rw [if_pos hle]
    have hrest : (f.stack.drop count).length = height - count := by simp [h.stack]
    exact .ok hle ⟨h.width, h.limit, hrest, HasRoom.mono h.room (by omega)⟩
  · rw [if_neg hle]
    exact .error hle

theorem peek (h : f.Sized m height) : Exactly f.peek (1 ≤ height) (fun _ => True) := by
  have hheight := h.stack
  unfold Frame.peek
  cases hstack : f.stack with
  | nil =>
    rw [hstack, List.length_nil] at hheight
    exact .error (by omega)
  | cons v rest =>
    rw [hstack, List.length_cons] at hheight
    exact .ok (by omega) trivial

theorem getLocal (h : f.Sized m height) (slot : Nat) :
    Exactly (f.getLocal slot) (slot < m.maxLocals) (fun _ => True) := by
  unfold Frame.getLocal
  rw [← h.width]
  by_cases hslot : slot < f.locals.length
  · rw [List.getElem?_eq_getElem hslot]
    exact .ok hslot trivial
  · rw [List.getElem?_eq_none (Nat.le_of_not_lt hslot)]
    exact .error hslot

theorem setLocal (h : f.Sized m height) (slot : Nat) (v : V) :
    Exactly (f.setLocal slot v) (slot < m.maxLocals) (Sized m height) := by
  unfold Frame.setLocal
  rw [h.width]
  by_cases hslot : slot < m.maxLocals
  · rw [if_pos hslot]
    have hwidth : (f.locals.set slot v).length = m.maxLocals := by simp [h.width]
    exact .ok hslot ⟨hwidth, h.limit, h.stack, h.room⟩
  · rw [if_neg hslot]
    exact .error hslot

end Frame.Sized

/-! ## Instructions -/

namespace Interpreter

variable {I : Interpreter V S} {s : S} {i : Nat} {f : Frame V}

/-- What a sequence of frame operations does, told by the table of stack effects. -/
theorem fits_of_exactly {instr : Instruction} {x : Except FrameError (S × Frame V)} {pre : Prop}
    {k : Nat} (count : Nat) (htakes : instr.Takes count)
    (h : Exactly x pre (Frame.SizedAfter m k))
    (hpre : pre ↔ count ≤ height ∧ (∀ slot, instr.slot? = some slot → slot < m.maxLocals) ∧
      (instr.pushes = true → m.HasRoom (height - count + instr.leaves)))
    (hk : pre → k = height - count + instr.leaves) :
    Exactly x (instr.Fits m height) (Frame.SizedBy m instr height) := by
  refine h.mono ?_ ?_
  · rw [hpre]
    constructor
    · intro hfits
      obtain ⟨count', htakes', hle⟩ := hfits.operands
      obtain rfl := htakes.unique htakes'
      exact ⟨hle, hfits.slot, fun hpushes => hfits.room hpushes _ ⟨count, htakes, rfl⟩⟩
    · rintro ⟨hle, hslot, hroom⟩
      refine ⟨⟨count, htakes, hle⟩, hslot, ?_⟩
      intro hpushes after hafter
      rw [hafter.eq htakes]
      exact hroom hpushes
  · intro r hp hr
    exact ⟨k, ⟨count, htakes, hk hp⟩, hr⟩

theorem returns_exactly (t : S) (hf : f.Sized m height) :
    Exactly (Pure.pure (t, f) : Except FrameError (S × Frame V)) True
      (Frame.SizedAfter m height) :=
  .pure hf

theorem pushFresh_exactly (instr : Instruction) (hf : f.Sized m height) :
    Exactly (I.pushFresh s i instr f) (m.HasRoom (height + 1))
      (Frame.SizedAfter m (height + 1)) := by
  unfold pushFresh
  refine ((hf.push (I.fresh s i instr).2).bind fun _ hg => returns_exactly _ hg).mono ?_
    fun _ _ h => h
  simp

theorem effect_exactly {instr : Instruction} (hinvoke : ∀ call, instr ≠ .invoke call)
    (hf : f.Sized m height) : Exactly (I.effect s i instr f) (instr.Fits m height)
      (Frame.SizedBy m instr height) := by
  cases instr with
  | invoke call => exact absurd rfl (hinvoke call)
  | nop | goto | ret => exact fits_of_exactly 0 rfl (returns_exactly s hf) (by simp) (by simp)
  | const | new => exact fits_of_exactly 0 rfl (pushFresh_exactly _ hf) (by simp) (by simp)
  | load slot =>
    have hload := (hf.getLocal slot).bind fun v _ => (hf.push v).bind
      fun _ hg => returns_exactly s hg
    exact fits_of_exactly 0 rfl hload (by simp) (by simp)
  | store slot =>
    have hstore := hf.pop.bind fun top htop => (htop.setLocal slot top.1).bind
      fun _ hg => returns_exactly s hg
    exact fits_of_exactly 1 rfl hstore (by simp) (by simp)
  | dup =>
    have hdup := hf.peek.bind fun v _ => (hf.push v).bind fun _ hg => returns_exactly s hg
    have hafter : 1 ≤ height → height - 1 + 2 = height + 1 := by omega
    refine fits_of_exactly 1 rfl hdup ?_ ?_
    · have hpushes : Instruction.dup.pushes = true := rfl
      simp only [and_true, Instruction.slot?, Instruction.leaves, reduceCtorEq, false_imp_iff,
        implies_true, true_and, hpushes, true_imp_iff]
      exact and_congr_right fun hpos => by rw [hafter hpos]
    · intro hpre
      exact (hafter hpre.1).symm
  | pop | ifZero | switch | throw | retValue =>
    exact fits_of_exactly 1 rfl (hf.pop.bind fun top htop => returns_exactly _ htop)
      (by simp) (by simp)
  | ifCmp =>
    have hpop := (hf.popN 2).bind fun pair hpair => returns_exactly s hpair
    exact fits_of_exactly 2 rfl hpop (by simp) (by simp)
  | swap =>
    have hswap := hf.pop.bind fun top htop => htop.pop.bind fun below hbelow =>
      (hbelow.push top.1).bind fun _ hg => (hg.push below.1).bind
        fun _ hg' => returns_exactly s hg'
    -- what is put back was there before, so there is room for it
    have hroom : ∀ k, k ≤ height → m.HasRoom k := fun k hk => HasRoom.mono hf.room hk
    refine fits_of_exactly 2 rfl hswap ?_ ?_
    · constructor
      · rintro ⟨hpos, hpos', -⟩
        have hle : height - 2 + 2 ≤ height := by omega
        exact ⟨by omega, by simp, fun _ => hroom _ hle⟩
      · rintro ⟨hle, -, -⟩
        exact ⟨by omega, by omega, hroom _ (by omega), hroom _ (by omega), trivial⟩
    · simp only [Instruction.leaves]
      omega
  | checkCast =>
    have hpeek := hf.peek.bind fun _ _ => returns_exactly s hf
    refine fits_of_exactly 1 rfl hpeek (by simp) ?_
    simp only [Instruction.leaves]
    omega
  | getField field isStatic =>
    cases isStatic with
    | true => exact fits_of_exactly 0 rfl (pushFresh_exactly _ hf) (by simp) (by simp)
    | false =>
      exact fits_of_exactly 1 rfl (hf.pop.bind fun object hobject => pushFresh_exactly _ hobject)
        (by simp) (by simp)
  | putField field isStatic =>
    cases isStatic with
    | true =>
      exact fits_of_exactly 1 rfl (hf.pop.bind fun value hvalue => returns_exactly _ hvalue)
        (by simp) (by simp)
    | false =>
      refine fits_of_exactly 2 rfl (hf.pop.bind fun value hvalue => hvalue.pop.bind
        fun object hobject => returns_exactly _ hobject) ?_ ?_
      · simp
        omega
      · simp only [Instruction.leaves]
        omega
  | arrayLoad | binary =>
    exact fits_of_exactly 2 rfl ((hf.popN 2).bind fun pair hpair => pushFresh_exactly _ hpair)
      (by simp) (by simp)
  | arrayStore =>
    refine fits_of_exactly 3 rfl (hf.pop.bind fun value hvalue => (hvalue.popN 2).bind
      fun place hplace => returns_exactly _ hplace) ?_ ?_
    · simp
      omega
    · simp only [Instruction.leaves]
      omega
  | unary =>
    exact fits_of_exactly 1 rfl (hf.pop.bind fun operand hoperand => pushFresh_exactly _ hoperand)
      (by simp) (by simp)

theorem invoke_exactly (hI : I.KeepsShape) {call : CallSite} {argCount : Nat}
    (hcount : call.argCount? = some argCount) (hf : f.Sized m height) :
    Exactly (I.invoke s i call argCount f) ((Instruction.invoke call).Fits m height)
      (Frame.SizedBy m (.invoke call) height) := by
  have hkeeps : ∀ args g, g.Sized m (height - argCount) →
      (I.call s i call args g).2.2.Sized m (height - argCount) :=
    fun args g hg => hg.of_sameShape (hI m s i call args g hg.sameShape)
  have htakes : (Instruction.invoke call).Takes argCount :=
    CallSite.argCount?_eq_some_iff.1 hcount
  unfold invoke
  by_cases hreturns : call.returnsValue
  · have hvoid := Descriptor.returnsValue_iff.1 hreturns
    simp only [hreturns, if_true]
    exact fits_of_exactly argCount htakes ((hf.popN argCount).bind fun popped hpopped =>
      ((hkeeps popped.1 popped.2 hpopped).push _).bind fun _ hg => returns_exactly _ hg)
      (by simp [hvoid]) (by simp [hvoid])
  · have hvoid := Decidable.not_not.1 (mt Descriptor.returnsValue_iff.2 hreturns)
    simp only [hreturns]
    exact fits_of_exactly argCount htakes ((hf.popN argCount).bind fun popped hpopped =>
      returns_exactly _ (hkeeps popped.1 popped.2 hpopped)) (by simp [hvoid])
      (by simp [hvoid])

/-- An execution succeeds exactly if the instruction fits, and leads to the height that the table
of stack effects tells. -/
theorem execute_exactly (hI : I.KeepsShape) (instr : Instruction) (hf : f.Sized m height) :
    Exactly (I.execute s i instr f) (instr.Fits m height) (Frame.SizedBy m instr height) := by
  by_cases hinvoke : ∃ call, instr = .invoke call
  · obtain ⟨call, rfl⟩ := hinvoke
    simp only [execute]
    cases hcount : call.argCount? with
    | none =>
      refine .error fun hfits => ?_
      obtain ⟨count, htakes, -⟩ := hfits.operands
      cases hcount.symm.trans (CallSite.argCount?_eq_some_iff.2 htakes)
    | some argCount => exact (invoke_exactly hI hcount hf).located i
  · have hother : ∀ call, instr ≠ .invoke call := fun call heq => hinvoke ⟨call, heq⟩
    have hlocated := (effect_exactly (I := I) (s := s) (i := i) hother hf).located i
    cases instr with
    | invoke call => exact absurd rfl (hother call)
    | _ => exact hlocated

/-- A handler can be entered exactly if there is room for one entry. -/
theorem handlerEntry_exactly (hf : f.Sized m height) :
    Exactly (I.handlerEntry s f) (m.HasRoom 1) (Frame.Sized m 1) :=
  hf.clearStack.push (I.newValue s)

end Interpreter

/-! ## Consistent heights -/

/-- The heights assigned to the reachable instructions start at zero, let every instruction be
executed, and agree along edges; behind every normal edge there is an instruction, and a handler
finds room for the exception, which is all that is on the stack when it is entered. -/
structure StackConsistent (m : Method) (height : Nat → Nat) : Prop where
  entry : height 0 = 0
  fits : ∀ (i : Nat) instr, m.Reachable i → m.code[i]? = some instr → instr.Fits m (height i)
  successor : ∀ (i j : Nat) instr, m.Reachable i → m.code[i]? = some instr →
    instr.GoesOn i j → j < m.code.length ∧ instr.HeightAfter (height i) (height j)
  handler : ∀ i, ∀ h ∈ m.handlers, m.Reachable i → h.start ≤ i → i < h.stop →
    height h.target = 1 ∧ m.maxStack ≠ some 0

/-- The normal edges are the ways on which control may go on. -/
theorem mem_successors_iff {i j : Nat} {instr : Instruction} (hcode : m.code[i]? = some instr) :
    j ∈ m.successors i ↔ instr.GoesOn i j := by
  unfold Method.successors Instruction.GoesOn
  rw [hcode, ← mem_jumpTargets_iff]
  cases instr <;> simp [jumpTargets, or_comm]

theorem mem_handlersCovering_iff {i : Nat} {h : Handler} :
    h ∈ m.handlersCovering i ↔ h ∈ m.handlers ∧ h.start ≤ i ∧ i < h.stop := by
  unfold Method.handlersCovering Handler.covers
  rw [List.mem_filter, Bool.and_eq_true, decide_eq_true_iff, decide_eq_true_iff]

theorem hasRoom_one_iff : m.HasRoom 1 ↔ m.maxStack ≠ some 0 := by
  unfold Method.HasRoom
  cases m.maxStack with
  | none => simp
  | some max =>
    simp only [Option.some.injEq, forall_eq', ne_eq]
    omega

variable [JoinSemilattice V] {I : Interpreter V S} {s : S} {a : Analysis V S}

theorem Frame.Sized.merged {f : Frame V} (h : f.Sized m height) (g : Frame V) :
    (f.merged g).Sized m height :=
  h.of_sameShape (h.sameShape.merged g).flip

variable [DecidableEq V]

/-- Whatever it was that was received, the frame there has its height. -/
theorem Analysis.Received.height? {j : Nat} {f : Frame V} (h : a.Received j f) :
    a.height? j = some f.stackHeight := by
  obtain ⟨g, hg, habsorbs⟩ := h
  have hheight : g.stackHeight = f.stackHeight := (Frame.absorbs_iff.1 habsorbs).1
  rw [Analysis.height?, hg, Option.map_some, hheight]

/-- The frames of a finished analysis have the declared number of slots and the declared stack
limit, and their stacks are within it. -/
theorem Analyzes.sized (hI : I.KeepsShape) (h : Analyzes I s m (.ok a)) {i : Nat} {f : Frame V}
    (hf : a.frame? i = some f) : f.Sized m f.stack.length := by
  have hkept : Worklist.Kept I m (fun _ _ => True) a.record
      (fun _ f => f.Sized m f.stack.length) (fun _ => True) := by
    refine ⟨?_, ?_, ?_⟩
    · intro i instr t t' f f' _ hf _ hexecute _
      obtain ⟨-, after, -, hafter⟩ := (Interpreter.execute_exactly hI instr hf).holds hexecute
      exact ⟨trivial, fun _ _ => hafter.of_eq hafter.stack.symm⟩
    · intro i handler t f entry hf _ _ hentry
      have hafter := ((Interpreter.handlerEntry_exactly hf).holds hentry).2
      exact hafter.of_eq hafter.stack.symm
    · intro k f g hf _ _
      exact (hf.merged g).of_eq (hf.merged g).stack.symm
  exact (h.frames I.accumulates_true hkept (.new _) trivial).1 i f hf

/-- The heights in the table of a finished analysis are consistent. -/
theorem consistent_of_analyzes (hI : I.KeepsShape) (h : Analyzes I s m (.ok a)) :
    StackConsistent m fun i => (a.height? i).getD 0 := by
  have hframe : ∀ i, m.Reachable i → ∃ f, a.frame? i = some f :=
    fun i hi => Analysis.isReachable_eq_true.1 ((h.isReachable_iff i).2 hi)
  have hheight : ∀ i f, a.frame? i = some f → (a.height? i).getD 0 = f.stack.length := by
    intro i f hf
    rw [Analysis.height?, hf]
    rfl
  refine ⟨?_, ?_, ?_, ?_⟩
  · obtain ⟨f, hf, hgrown⟩ := h.entry
    have hreceived : a.Received 0 (Frame.new m.maxLocals m.maxStack (I.newValue s)) :=
      ⟨f, hf, hgrown.absorbs _ (Frame.absorbs_self _)⟩
    rw [hreceived.height?]
    rfl
  · intro i instr hi hcode
    obtain ⟨f, hf⟩ := hframe i hi
    obtain ⟨instr', t, t', after, hcode', hexecute, -, -, -⟩ := h.settled I.accumulates_true hf
    obtain rfl := Option.some.inj (hcode.symm.trans hcode')
    rw [hheight i f hf]
    exact ((Interpreter.execute_exactly hI instr (h.sized hI hf)).holds hexecute).1
  · intro i j instr hi hcode hj
    obtain ⟨f, hf⟩ := hframe i hi
    obtain ⟨instr', t, t', after, hcode', hexecute, -, hsuccessors, -⟩ :=
      h.settled I.accumulates_true hf
    obtain rfl := Option.some.inj (hcode.symm.trans hcode')
    obtain ⟨-, k, hafter, hsize⟩ :=
      (Interpreter.execute_exactly hI instr (h.sized hI hf)).holds hexecute
    have hreceived := hsuccessors j ((mem_successors_iff hcode).2 hj)
    obtain ⟨g, hg, -⟩ := id hreceived
    have hk : after.stackHeight = k := hsize.stack
    refine ⟨h.lt_of_frame hg, ?_⟩
    rw [hreceived.height?, hheight i f hf, Option.getD_some, hk]
    exact hafter
  · intro i handler hmem hi hstart hstop
    obtain ⟨f, hf⟩ := hframe i hi
    obtain ⟨instr, t, t', after, -, -, -, -, hhandlers⟩ := h.settled I.accumulates_true hf
    obtain ⟨u, entry, hentry, hreceived⟩ :=
      hhandlers handler (mem_handlersCovering_iff.2 ⟨hmem, hstart, hstop⟩)
    obtain ⟨hroom, hsize⟩ := (Interpreter.handlerEntry_exactly (h.sized hI hf)).holds hentry
    refine ⟨?_, hasRoom_one_iff.1 hroom⟩
    rw [hreceived.height?]
    exact hsize.stack

/-! ## From heights to success -/

/-- The place is reachable, and the frame has the height that is assigned to it. -/
def Placed (m : Method) (height : Nat → Nat) (k : Nat) (f : Frame V) : Prop :=
  m.Reachable k ∧ f.Sized m (height k)

namespace Worklist

variable {n : Nat} {height : Nat → Nat}

omit [DecidableEq V] in
theorem placed_mergeClosed : MergeClosed (V := V) (Placed m height) :=
  fun _ _ g hf _ _ => ⟨hf.1, hf.2.merged g⟩

/-- Frames that have the heights assigned to their place can be propagated. -/
theorem propagate_ok {w : Worklist V S n} {target : Fin n} {f : Frame V}
    (h : w.AllFrames (Placed m height)) (hf : Placed m height target f) :
    ∃ w', w.propagate target f = .ok w' ∧ w'.AllFrames (Placed m height) := by
  have hok : ∃ w', w.propagate target f = .ok w' := by
    cases hframe : w.frames.get target with
    | none => exact ⟨_, propagate_of_none hframe⟩
    | some old =>
      have hold := (h target old hframe).2.stack
      rcases propagate_of_height hframe (hold.trans hf.2.stack.symm) with hsame | hgrown
      · exact ⟨_, hsame⟩
      · exact ⟨_, hgrown⟩
  obtain ⟨w', hw'⟩ := hok
  exact ⟨w', hw', allFrames_propagate placed_mergeClosed h hf hw'⟩

/-- If heights are consistent, a covering handler can be entered. -/
theorem enterHandler_ok (hm : m.WellDeclared) (hc : StackConsistent m height) {i : Nat}
    {before : Frame V} (hbefore : Placed m height i before) {handler : Handler}
    (hmem : handler ∈ m.handlersCovering i) {w : Worklist V S m.code.length}
    (h : w.AllFrames (Placed m height)) :
    ∃ w', enterHandler I before w handler = .ok w' ∧ w'.AllFrames (Placed m height) := by
  obtain ⟨hi, hsize⟩ := hbefore
  obtain ⟨hlisted, hstart, hstop⟩ := mem_handlersCovering_iff.1 hmem
  obtain ⟨hheight, hlimit⟩ := hc.handler i handler hlisted hi hstart hstop
  have hrange := (hm.handlers handler hlisted).2.2
  have hentry := Interpreter.handlerEntry_exactly (I := I) (s := w.record) hsize
  obtain ⟨entry, hok⟩ := hentry.succeeds (hasRoom_one_iff.2 hlimit)
  rw [enterHandler_of_lt hrange, hok]
  exact propagate_ok h ⟨hi.tail (.inr ⟨handler, hmem, rfl⟩),
    (hentry.holds hok).2.of_eq hheight.symm⟩

/-- If heights are consistent, an instruction can be executed, and its successors can be entered
with the outcome. -/
theorem execute_ok (hI : I.KeepsShape) (hc : StackConsistent m height) {i : Fin m.code.length}
    {before : Frame V} (hbefore : Placed m height i before) (s : S) :
    ∃ s' after, I.execute s i (m.code.get i) before = .ok (s', after) ∧
      ∀ (w : Worklist V S m.code.length), ∀ j ∈ m.successors i, w.AllFrames (Placed m height) →
        ∃ w', enterSuccessor i after w j = .ok w' ∧ w'.AllFrames (Placed m height) := by
  obtain ⟨hi, hsize⟩ := hbefore
  have hcode : m.code[(i : Nat)]? = some (m.code.get i) := List.getElem?_eq_getElem i.isLt
  have hexecutes := Interpreter.execute_exactly (s := s) (i := i) hI (m.code.get i) hsize
  obtain ⟨⟨s', after⟩, hexecute⟩ := hexecutes.succeeds (hc.fits i (m.code.get i) hi hcode)
  obtain ⟨-, k, hk, hafter⟩ := hexecutes.holds hexecute
  refine ⟨s', after, hexecute, ?_⟩
  intro w j hj h
  obtain ⟨hrange, hheight⟩ :=
    hc.successor i j (m.code.get i) hi hcode ((mem_successors_iff hcode).1 hj)
  unfold enterSuccessor
  rw [dif_pos hrange]
  exact propagate_ok h ⟨hi.tail (.inl hj), hafter.of_eq (hk.unique hheight)⟩

/-- If heights are consistent, no visit fails. -/
theorem visit_ok (hI : I.KeepsShape) (hm : m.WellDeclared) (hc : StackConsistent m height)
    {w : Worklist V S m.code.length} (h : w.AllFrames (Placed m height))
    (i : Fin m.code.length) :
    ∃ w', visit I m w i = .ok w' ∧ w'.AllFrames (Placed m height) := by
  cases hbefore : w.frames.get i with
  | none => exact ⟨w, visit_of_none hbefore, h⟩
  | some before =>
    have hplaced := h i before hbefore
    have hframe : w.frames[i] = some before := hbefore
    unfold visit
    rw [hframe]
    obtain ⟨w₁, hw₁, h₁⟩ := foldlM_ok (P := fun w => w.AllFrames (Placed m height))
      (g := enterHandler I before) (m.handlersCovering i)
      (fun v handler hmem hv => enterHandler_ok hm hc hplaced hmem hv) h
    obtain ⟨record, after, hexecute, hsuccessors⟩ := execute_ok hI hc hplaced w₁.record
    obtain ⟨w₂, hw₂, h₂⟩ := foldlM_ok (P := fun w => w.AllFrames (Placed m height))
      (g := enterSuccessor i after) (m.successors i) (w := { w₁ with record := record })
      hsuccessors h₁
    exact ⟨w₂, bind_eq_ok.2 ⟨w₁, hw₁, bind_eq_ok.2 ⟨(record, after), hexecute, hw₂⟩⟩, h₂⟩

/-- If heights are consistent, the end is a table of frames that have them. -/
theorem ends_ok_of_consistent (hI : I.KeepsShape) (hm : m.WellDeclared)
    (hc : StackConsistent m height) {w : Worklist V S m.code.length}
    {outcome : Except FlowError (Worklist V S m.code.length)} (hends : Ends I m w outcome)
    (h : w.AllFrames (Placed m height)) :
    ∃ last, outcome = .ok last ∧ last.AllFrames (Placed m height) := by
  induction hends with
  | done => exact ⟨_, rfl, h⟩
  | @failed w i rest _ _ hvisit =>
    have hw : (w.dequeued rest).AllFrames (Placed m height) := h
    obtain ⟨w', hvisit', -⟩ := visit_ok hI hm hc hw i
    cases hvisit.symm.trans hvisit'
  | @visited w w' i rest _ _ hvisit _ ih =>
    have hw : (w.dequeued rest).AllFrames (Placed m height) := h
    obtain ⟨v, hvisit', hv⟩ := visit_ok hI hm hc hw i
    obtain rfl := Except.ok.inj (hvisit.symm.trans hvisit')
    exact ih hv

end Worklist

/-- The analysis of a well-declared method with consistent heights yields a table, and its
frames have these heights. -/
theorem analyzes_ok_of_consistent (hI : I.KeepsShape) (hm : m.WellDeclared) {height : Nat → Nat}
    (hc : StackConsistent m height) {outcome : Except FlowError (Analysis V S)}
    (h : Analyzes I s m outcome) :
    ∃ a, outcome = .ok a ∧ ∀ i f, a.frame? i = some f → f.Sized m (height i) := by
  have hfault := (declarationFault?_eq_none_iff hm.nonempty).2 hm
  have hstart : (Worklist.initial I s m hm.nonempty).AllFrames (Placed m height) :=
    allFrames_initial hm.nonempty ⟨.refl, (Frame.Sized.new _).of_eq hc.entry.symm⟩
  cases h with
  | empty hne => exact absurd hm.nonempty hne
  | faulty hne hfault' => cases hfault.symm.trans hfault'
  | failed hne _ hends =>
    obtain ⟨last, hlast, -⟩ := Worklist.ends_ok_of_consistent hI hm hc hends hstart
    cases hlast
  | done hne _ hends =>
    obtain ⟨last, hlast, hall⟩ := Worklist.ends_ok_of_consistent hI hm hc hends hstart
    obtain rfl := Except.ok.inj hlast
    refine ⟨_, rfl, ?_⟩
    intro i f hf
    obtain ⟨hi, hfi⟩ := (frame?_eq_some _).1 hf
    exact (hall ⟨i, hi⟩ f hfi).2

/-- An analysis only succeeds on a well-declared method. -/
theorem Analyzes.wellDeclared (h : Analyzes I s m (.ok a)) : m.WellDeclared := by
  obtain ⟨hne, w, hfault, -, -⟩ := analyzes_ok_iff.1 h
  exact (declarationFault?_eq_none_iff hne).1 hfault

end Flow
end PoolLint

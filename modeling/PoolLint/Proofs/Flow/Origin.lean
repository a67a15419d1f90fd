import PoolLint.Proofs.Flow.Lockstep
import PoolLint.Proofs.Flow.Merging

/-!
# Where values come from

After an instruction every value in the frame was either moved there from a place of the frame
before it, or is new: supplied by the instruction itself, or the result of a call. Which of
these it is depends on the shape of the frame and not on its values.

To say this once for all instructions, the frame in which every place holds its own name
(`Frame.places`) is executed by an interpreter that marks new values as such (`origins`). Every
other execution on a frame of that shape runs in lockstep with this one.
-/

namespace PoolLint

/-- The instruction stores the top of the stack into the heap or returns it. -/
def Bytecode.Instruction.handsOver : Bytecode.Instruction → Bool
  | .putField _ _ | .arrayStore | .retValue => true
  | _ => false

namespace Flow

open PoolLint.Bytecode

/-! ## Places of a frame -/

/-- A place of a frame: a local slot, or a stack entry counted from the top. -/
inductive Place where
  | slot (k : Nat)
  | entry (k : Nat)
deriving DecidableEq, Repr

variable {V W : Type} {m : Method}

namespace Frame

/-- The value at a place. -/
def value? (f : Frame V) : Place → Option V
  | .slot k => f.locals[k]?
  | .entry k => f.stack[k]?

theorem getElem?_of_forall₂ {R : V → W → Prop} {as : List V} {bs : List W} {k : Nat} {v : V}
    (h : List.Forall₂ R as bs) (hv : as[k]? = some v) : ∃ w, bs[k]? = some w ∧ R v w := by
  obtain ⟨hk, rfl⟩ := List.getElem?_eq_some_iff.1 hv
  have hk' : k < bs.length := h.length_eq ▸ hk
  exact ⟨bs[k], List.getElem?_eq_getElem hk', h.get hk hk'⟩

theorem singleton_of_forall₂ {R : V → W → Prop} {v : V} {ws : List W}
    (h : List.Forall₂ R [v] ws) : ∃ w, R v w ∧ ws = [w] := by
  cases h with
  | cons hhead htail =>
    cases htail
    exact ⟨_, hhead, rfl⟩

/-- Related frames have related values at every place. -/
theorem Related.value? {R : V → W → Prop} {f : Frame V} {g : Frame W} (h : f.Related m R g)
    {p : Place} {v : V} (hv : f.value? p = some v) : ∃ w, g.value? p = some w ∧ R v w := by
  cases p with
  | slot k => exact getElem?_of_forall₂ h.locals hv
  | entry k => exact getElem?_of_forall₂ h.stack hv

theorem value?_new {init v : V} {p : Place}
    (h : (Frame.new m.maxLocals m.maxStack init).value? p = some v) : v = init := by
  cases p with
  | slot k =>
    have hmem : v ∈ List.replicate m.maxLocals init := List.mem_of_getElem? h
    exact List.eq_of_mem_replicate hmem
  | entry k => cases h

theorem getElem?_mergeValues [JoinSemilattice V] {as bs : List V} (hlen : as.length = bs.length)
    {k : Nat} {v : V} (hv : (mergeValues as bs)[k]? = some v) :
    ∃ a b, as[k]? = some a ∧ bs[k]? = some b ∧ v = merge a b := by
  induction as generalizing bs k with
  | nil =>
    cases bs with
    | nil => cases hv
    | cons b bs => cases hlen
  | cons a as ih =>
    cases bs with
    | nil => cases hlen
    | cons b bs =>
      rw [mergeValues] at hv
      cases k with
      | zero => exact ⟨a, b, rfl, rfl, (Option.some.inj hv).symm⟩
      | succ k => exact ih (Nat.succ.inj hlen) hv

/-- A merged frame holds the merges of the values at each place. -/
theorem value?_merged [JoinSemilattice V] {f g : Frame V} (h : f.SameShape m g) {p : Place}
    {v : V} (hv : (f.merged g).value? p = some v) :
    ∃ a b, f.value? p = some a ∧ g.value? p = some b ∧ v = merge a b := by
  cases p with
  | slot k => exact getElem?_mergeValues h.locals.length_eq hv
  | entry k => exact getElem?_mergeValues h.stack.length_eq hv

end Frame

/-! ## What instructions take from a frame -/

namespace Frame

/-- The arguments that a call takes from the stack, in the order they were pushed. -/
def args? (f : Frame V) (call : CallSite) : Option (List V) :=
  match call.argCount? with
  | none => none
  | some argCount =>
    if argCount ≤ f.stack.length then some (f.stack.take argCount).reverse else none

/-- A call takes its arguments if the stack holds that many. -/
theorem args?_eq_some {f : Frame V} {call : CallSite} {args : List V} :
    f.args? call = some args ↔ ∃ argCount, call.argCount? = some argCount ∧
      argCount ≤ f.stack.length ∧ args = (f.stack.take argCount).reverse := by
  unfold args?
  cases call.argCount? with
  | none => simp
  | some argCount =>
    simp only [Option.some.injEq, exists_eq_left']
    split_ifs with hle
    · rw [Option.some.injEq]
      exact ⟨fun h => ⟨hle, h.symm⟩, fun h => h.2.symm⟩
    · simp [hle]

/-- The arguments are listed from the bottom up, the stack from the top down. -/
theorem getElem?_reverse_take {stack : List V} {argCount j : Nat}
    (hle : argCount ≤ stack.length) (hj : j < argCount) :
    (stack.take argCount).reverse[j]? = stack[argCount - 1 - j]? := by
  have hlength : (stack.take argCount).length = argCount := by
    rw [List.length_take, Nat.min_eq_left hle]
  rw [List.getElem?_reverse (by omega), hlength, List.getElem?_take_of_lt (by omega)]

theorem args?_of_popN {f g : Frame V} {call : CallSite} {argCount : Nat} {args : List V}
    (hcount : call.argCount? = some argCount) (h : f.popN argCount = .ok (args, g)) :
    f.args? call = some args := by
  unfold popN at h
  split_ifs at h with hle
  obtain ⟨rfl, -⟩ := Prod.mk.inj (Except.ok.inj h)
  exact args?_eq_some.2 ⟨argCount, hcount, hle, rfl⟩

/-- Each argument comes from a place of the stack, the same one in all frames of one shape. -/
theorem args?_place {f : Frame V} {call : CallSite} {args : List V}
    (hargs : f.args? call = some args) {j : Nat} {v : V} (hj : args[j]? = some v) :
    ∃ k, f.value? (.entry k) = some v ∧ ∀ {W : Type} {m : Method} {g : Frame W} {w : W},
      f.SameShape m g → g.value? (.entry k) = some w →
        ∃ args', g.args? call = some args' ∧ args'.length = args.length ∧ args'[j]? = some w := by
  obtain ⟨argCount, hcount, hle, rfl⟩ := args?_eq_some.1 hargs
  have hjlt : j < argCount := by
    have hlt := (List.getElem?_eq_some_iff.1 hj).1
    rw [List.length_reverse, List.length_take, Nat.min_eq_left hle] at hlt
    exact hlt
  refine ⟨argCount - 1 - j, (getElem?_reverse_take hle hjlt).symm.trans hj, ?_⟩
  intro W m g w hg hw
  have hlength : f.stack.length = g.stack.length := hg.stack.length_eq
  have hle' : argCount ≤ g.stack.length := hlength ▸ hle
  refine ⟨_, args?_eq_some.2 ⟨argCount, hcount, hle', rfl⟩, ?_,
    (getElem?_reverse_take hle' hjlt).trans hw⟩
  rw [List.length_reverse, List.length_reverse, List.length_take, List.length_take, hlength]

/-- Related frames give a call related arguments. -/
theorem Related.args? {R : V → W → Prop} {f : Frame V} {g : Frame W} (h : f.Related m R g)
    {call : CallSite} {args : List V} (hargs : f.args? call = some args) :
    ∃ args', g.args? call = some args' ∧ List.Forall₂ R args args' := by
  obtain ⟨argCount, hcount, hle, rfl⟩ := args?_eq_some.1 hargs
  exact ⟨_, args?_eq_some.2 ⟨argCount, hcount, h.stack.length_eq ▸ hle, rfl⟩,
    List.rel_reverse (List.forall₂_take argCount h.stack)⟩

end Frame

namespace Interpreter

variable {S : Type} {I : Interpreter V S} {s s' : S} {i : Nat} {instr : Instruction}
  {f f' : Frame V}

/-- A successful call took its arguments off the stack and left its record. -/
theorem execute_invoke {call : CallSite}
    (h : I.execute s i (.invoke call) f = .ok (s', f')) :
    ∃ argCount args g, call.argCount? = some argCount ∧ f.popN argCount = .ok (args, g) ∧
      s' = (I.call s i call args g).1 := by
  simp only [execute] at h
  cases hcount : call.argCount? with
  | none =>
    rw [hcount] at h
    cases h
  | some argCount =>
    rw [hcount] at h
    simp only at h
    cases hinvoke : I.invoke s i call argCount f with
    | error e =>
      rw [hinvoke] at h
      cases h
    | ok outcome =>
      rw [hinvoke] at h
      obtain rfl : outcome = (s', f') := Except.ok.inj h
      obtain ⟨⟨args, g⟩, hpop, hrest⟩ := bind_eq_ok.1 hinvoke
      refine ⟨argCount, args, g, rfl, hpop, ?_⟩
      split_ifs at hrest
      · obtain ⟨g', -, hpush⟩ := bind_eq_ok.1 hrest
        exact (Prod.mk.inj (Except.ok.inj hpush)).1.symm
      · exact (Prod.mk.inj (Except.ok.inj hrest)).1.symm

/-- The execution of another instruction is its effect. -/
theorem execute_effect (hinvoke : ∀ call, instr ≠ .invoke call)
    (h : I.execute s i instr f = .ok (s', f')) :
    I.effect s i instr f = .ok (s', f') ∧ instr.call? = none := by
  have hlocated : ∀ {x : Except FrameError (S × Frame V)},
      located i x = .ok (s', f') → x = .ok (s', f') := by
    intro x hx
    -- naming the place changes only errors
    cases x with
    | error e => cases hx
    | ok a => exact congrArg Except.ok (Except.ok.inj hx)
  cases instr with
  | invoke call => exact absurd rfl (hinvoke call)
  | _ => exact ⟨hlocated h, rfl⟩

end Interpreter

/-! ## Origins -/

/-- Where a value after an instruction comes from. -/
inductive Origin where
  /-- It was at a place of the frame before the instruction. -/
  | moved (source : Place)
  /-- The instruction supplies it. -/
  | fresh
  /-- It is the result of a call. -/
  | result
deriving DecidableEq, Repr

/-- Marks new values by their origin. -/
def origins : Interpreter Origin Unit where
  newValue _ := .fresh
  fresh _ _ _ := ((), .fresh)
  storeHeap _ _ _ _ := ()
  call _ _ _ _ f := ((), .result, f)
  ret _ _ _ := ()

/-- The frame of the same shape in which every place holds its own name. -/
def Frame.places (f : Frame V) : Frame Origin where
  locals := (List.range f.locals.length).map (.moved <| .slot ·)
  stack := (List.range f.stack.length).map (.moved <| .entry ·)
  maxStack := f.maxStack

/-- The names of places are related to the values of any frame of the same shape by what
relates each name to the value at its place. -/
theorem Frame.places_related {f : Frame V} {g : Frame W} (h : f.SameShape m g)
    {R : Origin → W → Prop} (hR : ∀ q w, g.value? q = some w → R (.moved q) w) :
    f.places.Related m R g := by
  refine ⟨?_, ?_, ?_, h.limit, h.limit'⟩
  · refine List.forall₂_iff_get.2 ⟨?_, ?_⟩
    · rw [places, List.length_map, List.length_range, h.locals.length_eq]
    · intro k hk hk'
      simp only [places, List.get_eq_getElem, List.getElem_map, List.getElem_range]
      exact hR (.slot k) _ (List.getElem?_eq_getElem hk')
  · refine List.forall₂_iff_get.2 ⟨?_, ?_⟩
    · rw [places, List.length_map, List.length_range, h.stack.length_eq]
    · intro k hk hk'
      simp only [places, List.get_eq_getElem, List.getElem_map, List.getElem_range]
      exact hR (.entry k) _ (List.getElem?_eq_getElem hk')
  · rw [places, List.length_map, List.length_range, h.width]

end Flow
end PoolLint

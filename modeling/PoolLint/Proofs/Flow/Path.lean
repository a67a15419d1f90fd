import PoolLint.Proofs.Flow.Lockstep

/-!
# Paths through a method, and executions along them

A path is a sequence of hops along the edges of the control flow graph: from an instruction
to a normal successor, or to a handler that covers it. An interpreter can be run along a
single path (`Interpreter.along`). Nothing is merged there, so this is what the frames of the
analysis, which are merged where paths meet, have to be compared with.

An instruction is executed when the path leaves it normally. A hop to a handler takes the
locals as they were before the instruction, and only the exception on the stack.
-/

namespace PoolLint.Flow

open PoolLint.Bytecode

/-! ## Paths -/

/-- One step of control; `caught` tells a hop to an exception handler from a normal one. -/
structure Hop where
  source : Nat
  target : Nat
  caught : Bool
deriving DecidableEq, Repr

/-- The hops from instruction `i` lead along edges of the method to an instruction. -/
inductive Path (m : Method) (i : Nat) : List Hop → Nat → Prop
  | nil : Path m i [] i
  | normal {p : List Hop} {j k : Nat} (path : Path m i p j) (edge : k ∈ m.successors j) :
      Path m i (p ++ [⟨j, k, false⟩]) k
  | caught {p : List Hop} {j : Nat} {h : Handler} (path : Path m i p j)
      (covers : h ∈ m.handlersCovering j) : Path m i (p ++ [⟨j, h.target, true⟩]) h.target

namespace Path

variable {m : Method} {i j k : Nat} {p q : List Hop}

/-- Paths compose where one ends and the other starts. -/
theorem append (hp : Path m i p j) (hq : Path m j q k) : Path m i (p ++ q) k := by
  -- paths grow at the end, so the induction is on the second one
  induction hq with
  | nil =>
    rw [List.append_nil]
    exact hp
  | normal _ edge ih =>
    rw [← List.append_assoc]
    exact .normal ih edge
  | caught _ covers ih =>
    rw [← List.append_assoc]
    exact .caught ih covers

end Path

/-- The normal hops from `i` through a list of instructions. -/
def walk (i : Nat) : List Nat → List Hop
  | [] => []
  | k :: rest => ⟨i, k, false⟩ :: walk k rest

/-- A walk along normal edges is a path. -/
theorem path_walk {m : Method} {i : Nat} {rest : List Nat}
    (h : List.IsChain (fun j k => k ∈ m.successors j) (i :: rest)) :
    Path m i (walk i rest) (rest.getLastD i) := by
  induction rest generalizing i with
  | nil => exact .nil
  | cons k rest ih =>
    obtain ⟨hedge, hrest⟩ := List.isChain_cons_cons.1 h
    have hhop : Path m i [⟨i, k, false⟩] k := .normal .nil hedge
    rw [List.getLastD_cons]
    exact hhop.append (ih hrest)

/-! ## Executions along a path -/

namespace Interpreter

variable {V S : Type} (I : Interpreter V S) (m : Method)

/-- Takes one hop from the record and the frame before its source. -/
def hop (state : S × Frame V) (h : Hop) : Except FlowError (S × Frame V) :=
  if h.caught then
    (located h.target (I.handlerEntry state.1 state.2)).map (state.1, ·)
  else
    match m.code[h.source]? with
    | some instr => I.execute state.1 h.source instr state.2
    | none => .error (.fallsOffEnd h.source)

/-- The record and the frame at the end of a path that starts with the first instruction. -/
def along (s : S) (p : List Hop) : Except FlowError (S × Frame V) :=
  p.foldlM (I.hop m) (s, Frame.new m.maxLocals m.maxStack (I.newValue s))

variable {I m} {s s' : S} {f f' : Frame V} {p q : List Hop} {j k : Nat}

@[simp]
theorem along_nil :
    I.along m s [] = .ok (s, Frame.new m.maxLocals m.maxStack (I.newValue s)) := rfl

/-- The last hop of a path starts from what the rest of the path leads to. -/
theorem along_snoc (h : Hop) :
    I.along m s (p ++ [h]) = I.along m s p >>= fun st => I.hop m st h := by
  unfold along
  rw [List.foldlM_append]
  congr 1
  funext state
  exact bind_pure _

theorem along_normal {instr : Instruction} (hpath : I.along m s p = .ok (s', f))
    (hcode : m.code[j]? = some instr) :
    I.along m s (p ++ [⟨j, k, false⟩]) = I.execute s' j instr f := by
  rw [along_snoc, hpath]
  simp only [bind, Except.bind, hop, hcode]
  rfl

theorem along_caught (hpath : I.along m s p = .ok (s', f))
    (hentry : I.handlerEntry s' f = .ok f') :
    I.along m s (p ++ [⟨j, k, true⟩]) = .ok (s', f') := by
  rw [along_snoc, hpath]
  simp only [bind, Except.bind, hop, hentry]
  rfl

/-- A run along a path that ends with a normal hop executes the instruction there last. -/
theorem along_normal_eq_ok (h : I.along m s (p ++ [⟨j, k, false⟩]) = .ok (s', f')) :
    ∃ t f instr, I.along m s p = .ok (t, f) ∧ m.code[j]? = some instr ∧
      I.execute t j instr f = .ok (s', f') := by
  rw [along_snoc] at h
  obtain ⟨⟨t, f⟩, hp, hhop⟩ := bind_eq_ok.1 h
  cases hcode : m.code[j]? with
  | none => simp [hop, hcode] at hhop
  | some instr =>
    refine ⟨t, f, instr, hp, rfl, ?_⟩
    simpa [hop, hcode] using hhop

/-- A run along a path that ends with a hop to a handler leaves the record as it was. -/
theorem along_caught_eq_ok (h : I.along m s (p ++ [⟨j, k, true⟩]) = .ok (s', f')) :
    ∃ f, I.along m s p = .ok (s', f) ∧ I.handlerEntry s' f = .ok f' := by
  rw [along_snoc] at h
  obtain ⟨⟨t, f⟩, hp, hhop⟩ := bind_eq_ok.1 h
  cases hentry : I.handlerEntry t f with
  | error e => simp [hop, hentry, located, Except.map] at hhop
  | ok entry =>
    simp only [hop, hentry, located, Except.map, if_pos] at hhop
    obtain ⟨rfl, rfl⟩ := Prod.mk.inj (Except.ok.inj hhop)
    exact ⟨f, hp, hentry⟩

/-- What holds at the start and is kept by every hop holds at the end of every run. -/
theorem along_induction {P : Nat → S → Frame V → Prop}
    (start : P 0 s (Frame.new m.maxLocals m.maxStack (I.newValue s)))
    (normal : ∀ {j k t t' f f' instr}, P j t f → m.code[j]? = some instr →
      I.execute t j instr f = .ok (t', f') → k ∈ m.successors j → P k t' f')
    (caught : ∀ {j h t f f'}, P j t f → h ∈ m.handlersCovering j →
      I.handlerEntry t f = .ok f' → P h.target t f')
    (hp : Path m 0 p j) (h : I.along m s p = .ok (s', f)) : P j s' f := by
  induction hp generalizing s' f with
  | nil =>
    obtain ⟨rfl, rfl⟩ := Prod.mk.inj (Except.ok.inj h)
    exact start
  | normal _ edge ih =>
    obtain ⟨t, g, instr, hprefix, hcode, hexecute⟩ := along_normal_eq_ok h
    exact normal (ih hprefix) hcode hexecute edge
  | caught _ covers ih =>
    obtain ⟨g, hprefix, hentry⟩ := along_caught_eq_ok h
    exact caught (ih hprefix) covers hentry

end Interpreter
end PoolLint.Flow

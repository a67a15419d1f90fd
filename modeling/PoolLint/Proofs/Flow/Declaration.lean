import PoolLint.Flow.Analysis

/-!
# What a method declares

The checks made before the first visit, told as a property of the method: no check objects
exactly if the declared sizes are small enough and every jump and every handler stays within the
method (`declarationFault?_eq_none_iff`).
-/

namespace PoolLint

open PoolLint.Bytecode PoolLint.Flow

/-- The targets that an instruction names: that of a jump, and those of a switch. -/
inductive Bytecode.Instruction.JumpsTo : Instruction → Nat → Prop
  | goto (target : Nat) : JumpsTo (.goto target) target
  | ifZero (target : Nat) : JumpsTo (.ifZero target) target
  | ifCmp (target : Nat) : JumpsTo (.ifCmp target) target
  | switchDefault (targets : List Nat) (default : Nat) : JumpsTo (.switch targets default) default
  | switchCase {targets : List Nat} {target : Nat} (default : Nat) (listed : target ∈ targets) :
      JumpsTo (.switch targets default) target

/-- There is something to execute, frames have no more places than a method may declare, and
jumps and handlers lead to instructions of the method; also where control never gets. -/
structure Bytecode.Method.WellDeclared (m : Method) : Prop where
  nonempty : 0 < m.code.length
  slots : m.maxLocals ≤ 65535
  limit : ∀ max, m.maxStack = some max → max ≤ 65535
  jumps : ∀ (i : Nat) instr target, m.code[i]? = some instr → instr.JumpsTo target →
    target < m.code.length
  handlers : ∀ h ∈ m.handlers, h.start < h.stop ∧ h.stop ≤ m.code.length ∧
    h.target < m.code.length

namespace Flow

variable {m : Method}

theorem sizeFault?_eq_none : sizeFault? m = none ↔
    m.maxLocals ≤ 65535 ∧ ∀ max, m.maxStack = some max → max ≤ 65535 := by
  unfold sizeFault? maxFrameSlots
  rw [ite_eq_left_iff]
  cases m.maxStack with
  | none => simp
  | some limit => simp

/-- The targets that are checked are all that there are. -/
theorem mem_jumpTargets_iff {instr : Instruction} {target : Nat} :
    target ∈ jumpTargets instr ↔ instr.JumpsTo target := by
  constructor
  · intro h
    cases instr with
    | goto t =>
      obtain rfl := List.mem_singleton.1 h
      exact .goto target
    | ifZero t =>
      obtain rfl := List.mem_singleton.1 h
      exact .ifZero target
    | ifCmp t =>
      obtain rfl := List.mem_singleton.1 h
      exact .ifCmp target
    | switch targets default =>
      rcases List.mem_cons.1 h with rfl | hlisted
      · exact .switchDefault targets target
      · exact .switchCase default hlisted
    | _ => cases h
  · intro h
    cases h with
    | goto | ifZero | ifCmp => exact List.mem_singleton.2 rfl
    | switchDefault => exact List.mem_cons_self
    | switchCase default listed => exact List.mem_cons_of_mem default listed

theorem branchFault?_eq_none : branchFault? m = none ↔
    ∀ (i : Nat) instr target, m.code[i]? = some instr → instr.JumpsTo target →
      target < m.code.length := by
  unfold branchFault?
  rw [List.findSome?_eq_none_iff]
  constructor
  · intro h i instr target hcode hjump
    have hmem : (instr, i) ∈ m.code.zipIdx := List.mk_mem_zipIdx_iff_getElem?.2 hcode
    have hnone := h (instr, i) hmem
    rw [Option.map_eq_none_iff, List.find?_eq_none] at hnone
    simpa using hnone target (mem_jumpTargets_iff.2 hjump)
  · rintro h ⟨instr, i⟩ hmem
    have hcode : m.code[i]? = some instr := List.mk_mem_zipIdx_iff_getElem?.1 hmem
    rw [Option.map_eq_none_iff, List.find?_eq_none]
    intro target htarget
    simpa using h i instr target hcode (mem_jumpTargets_iff.1 htarget)

theorem handlerFault?_eq_none : handlerFault? m = none ↔
    ∀ h ∈ m.handlers, h.start < h.stop ∧ h.stop ≤ m.code.length ∧ h.target < m.code.length := by
  unfold handlerFault?
  rw [Option.map_eq_none_iff, List.find?_eq_none]
  apply forall₂_congr
  intro h _
  simp [and_assoc]

/-- The checks find nothing wrong exactly with the methods that are declared well. -/
theorem declarationFault?_eq_none_iff (hne : 0 < m.code.length) :
    declarationFault? m = none ↔ m.WellDeclared := by
  have hall : declarationFault? m = none ↔
      sizeFault? m = none ∧ branchFault? m = none ∧ handlerFault? m = none := by
    unfold declarationFault?
    cases sizeFault? m <;> cases branchFault? m <;> simp
  rw [hall, sizeFault?_eq_none, branchFault?_eq_none, handlerFault?_eq_none]
  constructor
  · rintro ⟨⟨hslots, hlimit⟩, hjumps, hhandlers⟩
    exact ⟨hne, hslots, hlimit, hjumps, hhandlers⟩
  · intro h
    exact ⟨⟨h.slots, h.limit⟩, h.jumps, h.handlers⟩

end Flow
end PoolLint

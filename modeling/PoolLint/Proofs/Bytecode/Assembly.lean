import Mathlib.Data.List.Forall2
import Mathlib.Data.List.Induction
import PoolLint.Bytecode.Assembler

/-!
# What the assembler makes of its directives

`Assembles` reads a list of directives twice, as an assembler does that first looks up all labels
and then writes the code: what a label stands for is said of the whole list (`StandsFor`), and each
emitting directive gives one instruction by it (`Emits`). The assembler itself reads the list once,
with placeholders where the targets will be. `HasRead` is what holds in between: the patches noted
so far, applied with any targets at all, give the code that the directives read so far describe
with these targets. Since the targets are free there, it does not matter that marks are still to
come, and `assemble_exact` takes for them what the labels stand for in the end.
-/

namespace PoolLint.Bytecode

open Assembler

/-! ## Reading a list of directives twice -/

namespace Directive

/-- The number of local slots that a directive sets. -/
def locals? : Directive → Option Nat
  | .locals count => some count
  | _ => none

/-- The stack limit that a directive sets. -/
def maxStack? : Directive → Option Nat
  | .maxStack limit => some limit
  | _ => none

/-- The source line that a directive sets. -/
def line? : Directive → Option Nat
  | .line number => some number
  | _ => none

/-- The handler that a directive declares. -/
def handler? : Directive → Option PendingHandler
  | .tryCatch start stop target catchType => some ⟨start, stop, target, catchType⟩
  | _ => none

/-- The jump to labels that a directive emits. -/
def jump? : Directive → Option Jump
  | .goto label => some (.goto label)
  | .ifZero label => some (.ifZero label)
  | .ifCmp label => some (.ifCmp label)
  | .switch targets default => some (.switch targets default)
  | _ => none

/-- The instruction that a directive emits, by what its labels stand for. -/
def instruction? (target : Label → Nat) : Directive → Option Instruction
  | instr raw => some raw
  | d => d.jump?.map (·.instruction target)

/-- The directive emits an instruction. -/
def emits : Directive → Bool
  | .instr _ | .goto _ | .ifZero _ | .ifCmp _ | .switch _ _ => true
  | _ => false

/-- The directive declares a handler. -/
def declares : Directive → Bool
  | .tryCatch _ _ _ _ => true
  | _ => false

end Directive

/-- The index of the next instruction after some directives. -/
def placeAfter (ds : List Directive) : Nat :=
  ds.countP (·.emits)

/-- The source line in force after some directives. -/
def lineAfter? (ds : List Directive) : Option Nat :=
  (ds.filterMap (·.line?)).getLast?

/-- The index that a label stands for: the place of its last mark, wherever that is, and
`unboundTarget` if there is none. -/
inductive StandsFor (ds : List Directive) (label : Label) : Nat → Prop
  | marked {before after : List Directive} (split : ds = before ++ .mark label :: after)
      (last : .mark label ∉ after) : StandsFor ds label (placeAfter before)
  | unmarked (absent : .mark label ∉ ds) : StandsFor ds label unboundTarget

/-- The instruction that a directive emits among others. -/
inductive Emits (ds : List Directive) : Directive → Instruction → Prop
  | instr {instr : Instruction} : Emits ds (.instr instr) instr
  | goto {label : Label} {i : Nat} (h : StandsFor ds label i) : Emits ds (.goto label) (.goto i)
  | ifZero {label : Label} {i : Nat} (h : StandsFor ds label i) :
      Emits ds (.ifZero label) (.ifZero i)
  | ifCmp {label : Label} {i : Nat} (h : StandsFor ds label i) : Emits ds (.ifCmp label) (.ifCmp i)
  | switch {labels : List Label} {default : Label} {targets : List Nat} {i : Nat}
      (htargets : List.Forall₂ (StandsFor ds) labels targets) (hdefault : StandsFor ds default i) :
      Emits ds (.switch labels default) (.switch targets i)

/-- The handler that a directive declares among others. -/
inductive Declares (ds : List Directive) : Directive → Handler → Prop
  | tryCatch {start stop target : Label} {catchType : Option String} {i j k : Nat}
      (hstart : StandsFor ds start i) (hstop : StandsFor ds stop j)
      (htarget : StandsFor ds target k) :
      Declares ds (.tryCatch start stop target catchType) ⟨i, j, k, catchType⟩

/-- The method is the one that the directives describe. -/
structure Assembles (name desc : String) (ds : List Directive) (m : Method) : Prop where
  name : m.name = name
  desc : m.desc = desc
  isStatic : m.isStatic = true ↔ .static ∈ ds
  maxLocals : m.maxLocals = (ds.filterMap (·.locals?)).getLast?.getD 1
  maxStack : m.maxStack = (ds.filterMap (·.maxStack?)).getLast?
  /-- One instruction for each emitting directive, in order. -/
  code : List.Forall₂ (Emits ds) (ds.filter (·.emits)) m.code
  lines_length : m.lines.length = m.code.length
  /-- An instruction is of the line in force where it was emitted. -/
  lines : ∀ before d after, ds = before ++ d :: after → d.emits = true →
    m.lines[placeAfter before]? = some (lineAfter? before)
  handlers : List.Forall₂ (Declares ds) (ds.filter (·.declares)) m.handlers

/-! ## One method at most -/

theorem placeAfter_concat (ds : List Directive) (d : Directive) :
    placeAfter (ds ++ [d]) = placeAfter ds + if d.emits then 1 else 0 := by
  rw [placeAfter, List.countP_append, List.countP_singleton]
  rfl

/-- Two splits at the same directive agree if it does not occur after either. -/
theorem split_unique {d : Directive} {before before' after after' : List Directive}
    (last : d ∉ after) (last' : d ∉ after') (h : before ++ d :: after = before' ++ d :: after') :
    before = before' := by
  -- the part by which one split is later starts with `d`, and the other split has it after `d`.
  have shorter : ∀ {more after after' : List Directive}, d ∉ after →
      d :: after = more ++ d :: after' → more = [] := by
    intro more after after' last heq
    cases more with
    | nil => rfl
    | cons _ more =>
      obtain ⟨-, rfl⟩ := List.cons.inj heq
      exact absurd (List.mem_append_right more List.mem_cons_self) last
  rcases List.append_eq_append_iff.1 h with ⟨more, rfl, heq⟩ | ⟨more, rfl, heq⟩
  · rw [shorter last heq, List.append_nil]
  · rw [shorter last' heq, List.append_nil]

/-- A label stands for one index only. -/
theorem standsFor_rightUnique (ds : List Directive) : Relator.RightUnique (StandsFor ds) := by
  intro label i j hi hj
  cases hi with
  | marked split last =>
    cases hj with
    | marked split' last' => rw [split_unique last last' (split.symm.trans split')]
    | unmarked absent =>
      rw [split] at absent
      exact absurd (List.mem_append_right _ List.mem_cons_self) absent
  | unmarked absent =>
    cases hj with
    | marked split' =>
      rw [split'] at absent
      exact absurd (List.mem_append_right _ List.mem_cons_self) absent
    | unmarked => rfl

theorem emits_rightUnique (ds : List Directive) : Relator.RightUnique (Emits ds) := by
  have hlabel := standsFor_rightUnique ds
  intro d instr instr' h h'
  cases h with
  | instr => cases h'; rfl
  | goto hi => cases h' with | goto hi' => rw [hlabel hi hi']
  | ifZero hi => cases h' with | ifZero hi' => rw [hlabel hi hi']
  | ifCmp hi => cases h' with | ifCmp hi' => rw [hlabel hi hi']
  | switch htargets hi =>
    cases h' with
    | switch htargets' hi' => rw [hlabel.forall₂ htargets htargets', hlabel hi hi']

theorem declares_rightUnique (ds : List Directive) : Relator.RightUnique (Declares ds) := by
  have hlabel := standsFor_rightUnique ds
  intro d handler handler' h h'
  cases h with
  | tryCatch hstart hstop htarget =>
    cases h' with
    | tryCatch hstart' hstop' htarget' =>
      rw [hlabel hstart hstart', hlabel hstop hstop', hlabel htarget htarget']

/-- Every instruction index is the position of some emitting directive. -/
theorem exists_split_of_lt_placeAfter {ds : List Directive} {i : Nat} (h : i < placeAfter ds) :
    ∃ before d after, ds = before ++ d :: after ∧ d.emits = true ∧ placeAfter before = i := by
  induction ds using List.reverseRecOn with
  | nil => cases h
  | append_singleton ds d ih =>
    by_cases hi : i < placeAfter ds
    · obtain ⟨before, d', after, rfl, hd', rfl⟩ := ih hi
      exact ⟨before, d', after ++ [d], by simp, hd', rfl⟩
    · rw [placeAfter_concat] at h
      cases hd : d.emits with
      | false => rw [hd] at h; exact absurd h hi
      | true => rw [hd, if_pos rfl] at h; exact ⟨ds, d, [], rfl, hd, by omega⟩

theorem Assembles.length_code {name desc : String} {ds : List Directive} {m : Method}
    (h : Assembles name desc ds m) : m.code.length = placeAfter ds := by
  rw [← h.code.length_eq, placeAfter, List.countP_eq_length_filter]

/-- Directives describe one method only. -/
theorem Assembles.unique {name desc : String} {ds : List Directive} {m m' : Method}
    (h : Assembles name desc ds m) (h' : Assembles name desc ds m') : m = m' := by
  have hstatic : m.isStatic = m'.isStatic := Bool.eq_iff_iff.2 (h.isStatic.trans h'.isStatic.symm)
  have hcode : m.code = m'.code := (emits_rightUnique ds).forall₂ h.code h'.code
  have hhandlers : m.handlers = m'.handlers :=
    (declares_rightUnique ds).forall₂ h.handlers h'.handlers
  have hlines : m.lines = m'.lines := by
    apply List.ext_getElem?
    intro i
    by_cases hi : i < placeAfter ds
    · obtain ⟨before, d, after, hds, hd, rfl⟩ := exists_split_of_lt_placeAfter hi
      rw [h.lines before d after hds hd, h'.lines before d after hds hd]
    · rw [List.getElem?_eq_none (by rw [h.lines_length, h.length_code]; omega),
        List.getElem?_eq_none (by rw [h'.lines_length, h'.length_code]; omega)]
  cases m
  cases m'
  simp only [Method.mk.injEq]
  exact ⟨h.name.trans h'.name.symm, h.desc.trans h'.desc.symm, hstatic,
    h.maxLocals.trans h'.maxLocals.symm, h.maxStack.trans h'.maxStack.symm, hcode, hhandlers,
    hlines⟩

/-! ## Reading it once -/

namespace Assembler

/-- Patches change instructions and add none. -/
@[simp]
theorem length_patched (target : Label → Nat) (ps : List Patch) (code : List Instruction) :
    (ps.foldl (Patch.applyTo target) code).length = code.length := by
  induction ps generalizing code with
  | nil => rfl
  | cons p ps ih => rw [List.foldl_cons, ih, Patch.applyTo, List.length_set]

/-- Patches of a part of the code leave what follows it alone. -/
theorem patched_append (target : Label → Nat) {ps : List Patch} {code : List Instruction}
    (h : ∀ p ∈ ps, p.place < code.length) (rest : List Instruction) :
    ps.foldl (Patch.applyTo target) (code ++ rest) =
      ps.foldl (Patch.applyTo target) code ++ rest := by
  induction ps generalizing code with
  | nil => rfl
  | cons p ps ih =>
    have hset : Patch.applyTo target (code ++ rest) p = Patch.applyTo target code p ++ rest :=
      List.set_append_left _ _ (h p List.mem_cons_self)
    rw [List.foldl_cons, List.foldl_cons, hset, ih]
    intro q hq
    rw [Patch.applyTo, List.length_set]
    exact h q (List.mem_cons_of_mem _ hq)

/-- The state that directives lead to. -/
structure HasRead (name desc : String) (ds : List Directive) (s : State) : Prop where
  name : s.name = name
  desc : s.desc = desc
  isStatic : s.isStatic = true ↔ .static ∈ ds
  maxLocals : s.maxLocals = (ds.filterMap (·.locals?)).getLast?.getD 1
  maxStack : s.maxStack = (ds.filterMap (·.maxStack?)).getLast?
  currentLine : s.currentLine = lineAfter? ds
  nextLabel : s.nextLabel = ds.count .newLabel
  position : s.position = placeAfter ds
  lines_length : s.lines.length = s.position
  lines : ∀ before d after, ds = before ++ d :: after → d.emits = true →
    s.lines[placeAfter before]? = some (lineAfter? before)
  pending : s.pending = ds.filterMap (·.handler?)
  resolve : ∀ label, StandsFor ds label (s.resolve label)
  places : ∀ p ∈ s.patches, p.place < s.position
  /-- With any targets the patches make the described code of what was emitted. -/
  patched : ∀ target, s.patches.foldl (Patch.applyTo target) s.code =
    ds.filterMap (·.instruction? target)

/-- Before the first directive nothing is described. -/
theorem hasRead_start (name desc : String) : HasRead name desc [] (start name desc) where
  name := rfl
  desc := rfl
  isStatic := by simp [start]
  maxLocals := rfl
  maxStack := rfl
  currentLine := rfl
  nextLabel := rfl
  position := rfl
  lines_length := rfl
  lines := by simp
  pending := rfl
  resolve := fun _ => .unmarked List.not_mem_nil
  places := by simp [start]
  patched := fun _ => rfl

/-- The last value that is set is the new one, if there is one. -/
theorem getLast?_filterMap_concat {α β : Type} (f : α → Option β) (xs : List α) (x : α) :
    ((xs ++ [x]).filterMap f).getLast? = (f x).or (xs.filterMap f).getLast? := by
  rw [List.filterMap_append]
  cases hx : f x with
  | none => rw [List.filterMap_cons_none hx, List.filterMap_nil, List.append_nil, Option.none_or]
  | some y => rw [List.filterMap_cons_some hx, List.filterMap_nil, List.getLast?_concat]; rfl

section

/-! What one directive does, field by field. -/

variable (s : State) (d : Directive)

theorem apply_code :
    (s.apply d).code = s.code ++ (d.instruction? fun _ => unboundTarget).toList := by
  cases d <;> simp [State.apply, State.emitJump, State.emit, Directive.instruction?,
    Directive.jump?]

theorem apply_patches :
    (s.apply d).patches = s.patches ++ (d.jump?.map (Patch.mk s.position)).toList := by
  cases d <;> simp [State.apply, State.emitJump, State.emit, Directive.jump?]

theorem apply_lines :
    (s.apply d).lines = s.lines ++ if d.emits then [s.currentLine] else [] := by
  cases d <;> simp [State.apply, State.emitJump, State.emit, Directive.emits]

theorem apply_currentLine : (s.apply d).currentLine = d.line?.or s.currentLine := by
  cases d <;> rfl

theorem apply_pending : (s.apply d).pending = s.pending ++ d.handler?.toList := by
  cases d <;> simp [State.apply, State.emitJump, State.emit, Directive.handler?]

theorem apply_resolve (label : Label) : (s.apply d).resolve label =
    if d = .mark label then s.position else s.resolve label := by
  cases d with
  | mark label' =>
    rw [State.apply, State.resolve, List.lookup_cons]
    by_cases hlabel : label = label'
    · rw [hlabel, beq_self_eq_true, if_pos rfl]; rfl
    · have hmark : Directive.mark label' ≠ .mark label :=
        fun h => hlabel (Directive.mark.inj h).symm
      rw [beq_false_of_ne hlabel, if_neg hmark]; rfl
  | _ => rfl

theorem apply_position :
    (s.apply d).position = s.position + if d.emits then 1 else 0 := by
  cases d <;> simp [State.apply, State.emitJump, State.emit, State.position, Directive.emits]

end

end Assembler

/-- A jump is emitted with the targets given. -/
theorem Directive.instruction?_of_jump {d : Directive} {jump : Jump} (h : d.jump? = some jump)
    (target : Label → Nat) : d.instruction? target = some (jump.instruction target) := by
  cases d <;> cases h <;> rfl

theorem Directive.emits_of_jump {d : Directive} {jump : Jump} (h : d.jump? = some jump) :
    d.emits = true := by
  cases d <;> cases h <;> rfl

/-- What is emitted apart from jumps depends on no label. -/
theorem Directive.instruction?_of_no_jump {d : Directive} (h : d.jump? = none)
    (target target' : Label → Nat) : d.instruction? target = d.instruction? target' := by
  cases d <;> cases h <;> rfl

/-- A mark that is read last is the one that counts. -/
theorem StandsFor.concat_mark (ds : List Directive) (label : Label) :
    StandsFor (ds ++ [.mark label]) label (placeAfter ds) :=
  .marked rfl List.not_mem_nil

/-- Other directives leave a label what it is. -/
theorem StandsFor.concat {ds : List Directive} {label : Label} {i : Nat}
    (h : StandsFor ds label i) {d : Directive} (hd : d ≠ .mark label) :
    StandsFor (ds ++ [d]) label i := by
  have hlast : .mark label ∉ [d] := by simpa using hd.symm
  cases h with
  | @marked before after split last =>
    have hsplit : ds ++ [d] = before ++ .mark label :: (after ++ [d]) := by
      rw [split, List.append_assoc, List.cons_append]
    refine .marked hsplit ?_
    rw [List.mem_append]
    exact not_or.2 ⟨last, hlast⟩
  | unmarked absent =>
    refine .unmarked ?_
    rw [List.mem_append]
    exact not_or.2 ⟨absent, hlast⟩

namespace Assembler

variable {name desc : String} {ds : List Directive} {s : State}

/-- With one more directive, the patches still make the described code. -/
theorem HasRead.patched_apply (h : HasRead name desc ds s) (d : Directive)
    (target : Label → Nat) :
    (s.apply d).patches.foldl (Patch.applyTo target) (s.apply d).code =
      (ds ++ [d]).filterMap (·.instruction? target) := by
  rw [apply_patches, apply_code, List.foldl_append, patched_append target h.places, h.patched,
    List.filterMap_append]
  cases hjump : d.jump? with
  | none =>
    rw [Directive.instruction?_of_no_jump hjump (fun _ => unboundTarget) target]
    cases hd : d.instruction? target <;> simp [hd]
  | some jump =>
    -- the new patch is the last, and its place is right behind the code before.
    have hplace : s.position = (ds.filterMap (·.instruction? target)).length := by
      rw [← h.patched target, length_patched]; rfl
    rw [Directive.instruction?_of_jump hjump]
    simp [Patch.applyTo, hplace, Directive.instruction?_of_jump hjump]

/-- An instruction keeps the line that it was emitted under. -/
theorem HasRead.lines_apply (h : HasRead name desc ds s) (d : Directive)
    {before after : List Directive} {d' : Directive} (hds : ds ++ [d] = before ++ d' :: after)
    (hd' : d'.emits = true) :
    (s.apply d).lines[placeAfter before]? = some (lineAfter? before) := by
  rw [apply_lines]
  cases after using List.reverseRecOn with
  | nil =>
    obtain ⟨rfl, hlast⟩ := List.append_inj' hds rfl
    obtain rfl : d = d' := (List.cons.inj hlast).1
    rw [if_pos hd', ← h.position, ← h.lines_length, List.getElem?_concat_length, h.currentLine]
  | append_singleton after d'' =>
    rw [← List.cons_append, ← List.append_assoc] at hds
    obtain ⟨hds, -⟩ := List.append_inj' hds rfl
    have hline := h.lines before d' after hds hd'
    rw [List.getElem?_append_left (List.getElem?_eq_some_iff.1 hline).1, hline]

/-- One directive is read. -/
theorem HasRead.apply (h : HasRead name desc ds s) (d : Directive) :
    HasRead name desc (ds ++ [d]) (s.apply d) where
  name := by cases d <;> exact h.name
  desc := by cases d <;> exact h.desc
  isStatic := by cases d <;> simp [State.apply, State.emitJump, State.emit, h.isStatic]
  maxLocals := by
    rw [getLast?_filterMap_concat]
    cases d with
    | locals => rfl
    | _ => exact h.maxLocals
  maxStack := by
    rw [getLast?_filterMap_concat]
    cases d with
    | maxStack => rfl
    | _ => exact h.maxStack
  currentLine := by
    rw [lineAfter?, getLast?_filterMap_concat, apply_currentLine, h.currentLine]
    rfl
  nextLabel := by
    rw [List.count_append]
    cases d <;> simp [State.apply, State.emitJump, State.emit, h.nextLabel]
  position := by rw [apply_position, h.position, placeAfter_concat]
  lines_length := by
    rw [apply_lines, apply_position, List.length_append, h.lines_length]
    cases d.emits <;> rfl
  lines := fun _ _ _ hds hd' => h.lines_apply d hds hd'
  pending := by
    rw [apply_pending, h.pending, List.filterMap_append]
    cases hd : d.handler? <;> simp [hd]
  resolve := by
    intro label
    rw [apply_resolve]
    split
    next hd => rw [hd, h.position]; exact .concat_mark ds label
    next hd => exact (h.resolve label).concat hd
  places := by
    intro p hp
    rw [apply_patches, List.mem_append] at hp
    rw [apply_position]
    rcases hp with hp | hp
    · exact Nat.lt_add_right _ (h.places p hp)
    · obtain ⟨jump, hjump, rfl⟩ := Option.map_eq_some_iff.1 (Option.mem_toList.1 hp)
      rw [if_pos (Directive.emits_of_jump hjump)]
      exact Nat.lt_succ_self _
  patched := h.patched_apply d

/-- A whole list is read. -/
theorem hasRead_foldl (name desc : String) (ds : List Directive) :
    HasRead name desc ds (ds.foldl State.apply (start name desc)) := by
  induction ds using List.reverseRecOn with
  | nil => exact hasRead_start name desc
  | append_singleton ds d ih =>
    rw [List.foldl_append]
    exact ih.apply d

end Assembler

/-! ## The method that is built -/

variable {ds : List Directive} {target : Label → Nat}

/-- Labels that stand for these targets stand for them in lists as well. -/
theorem forall₂_standsFor (htarget : ∀ label, StandsFor ds label (target label))
    (labels : List Label) : List.Forall₂ (StandsFor ds) labels (labels.map target) :=
  List.forall₂_map_right_iff.2 (List.forall₂_same.2 fun label _ => htarget label)

/-- The code with the targets that labels stand for is the emitted one. -/
theorem forall₂_emits (htarget : ∀ label, StandsFor ds label (target label))
    (part : List Directive) :
    List.Forall₂ (Emits ds) (part.filter (·.emits)) (part.filterMap (·.instruction? target)) := by
  induction part with
  | nil => exact .nil
  | cons d part ih =>
    cases d with
    | instr => exact .cons .instr ih
    | goto => exact .cons (.goto (htarget _)) ih
    | ifZero => exact .cons (.ifZero (htarget _)) ih
    | ifCmp => exact .cons (.ifCmp (htarget _)) ih
    | switch labels => exact .cons (.switch (forall₂_standsFor htarget labels) (htarget _)) ih
    | _ => exact ih

/-- The handlers with the indices that labels stand for are the declared ones. -/
theorem forall₂_declares {s : State} (hresolve : ∀ label, StandsFor ds label (s.resolve label))
    (part : List Directive) :
    List.Forall₂ (Declares ds) (part.filter (·.declares))
      ((part.filterMap (·.handler?)).map s.resolveHandler) := by
  induction part with
  | nil => exact .nil
  | cons d part ih =>
    cases d with
    | tryCatch => exact .cons (.tryCatch (hresolve _) (hresolve _) (hresolve _)) ih
    | _ => exact ih

/-- The assembler builds the described method. -/
theorem assembles_assemble (name desc : String) (ds : List Directive) :
    Assembles name desc ds (assemble name desc ds) := by
  have h := hasRead_foldl name desc ds
  have hcode : (assemble name desc ds).code =
      ds.filterMap (·.instruction? (ds.foldl State.apply (start name desc)).resolve) :=
    h.patched _
  exact {
    name := h.name
    desc := h.desc
    isStatic := h.isStatic
    maxLocals := h.maxLocals
    maxStack := h.maxStack
    code := by rw [hcode]; exact forall₂_emits h.resolve ds
    lines_length := h.lines_length.trans (length_patched _ _ _).symm
    lines := h.lines
    handlers := by
      show List.Forall₂ _ _ ((ds.foldl State.apply (start name desc)).pending.map _)
      rw [h.pending]
      exact forall₂_declares h.resolve ds }

/-- A label bound twice, one never bound, and a handler that ends with the code. -/
example :
    let m := assemble "m" "()V"
      [.newLabel, .newLabel, .newLabel, .mark 0, .switch [0, 1] 2, .line 12, .goto 0, .mark 0,
        .instr (.goto 7), .mark 2, .tryCatch 0 2 1 none]
    m.code = [.switch [2, unboundTarget] 3, .goto 2, .goto 7] ∧ m.lines = [none, some 12, some 12] ∧
      m.handlers = [⟨2, 3, unboundTarget, none⟩] := by
  decide

end PoolLint.Bytecode

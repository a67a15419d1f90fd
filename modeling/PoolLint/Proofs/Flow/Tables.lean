import Mathlib.Data.List.OfFn
import PoolLint.Flow.Taint
import PoolLint.Proofs.Flow.Declaration
import PoolLint.Proofs.Flow.Queue

/-!
# The worklist on plain tables

`Worklist` cannot be indexed out of range: its frames are a vector with one place for each
instruction, and its queue holds places. This file tells the same computation on plain lists,
with a table of flags for what is queued, and stops with `Halt.outOfRange` wherever an index is
not covered by the list it is used on. No handler target is compared with the length of the
method on the way; that the declarations were checked has to be enough.

It is enough: from every state of the worklist, the computation on the tables of that state does
what the worklist does (`Tables.visit_tables`, `Tables.run_tables`). Two things are needed besides
well-formed declarations. The place that is taken out of the queue is in it only once, so clearing
its flag is right; and a place behind the last instruction is noticed before it is used.
-/

namespace PoolLint.Flow

open PoolLint.Bytecode

/-- Why a computation on tables stops without a result. -/
inductive Halt where
  | gaveUp (e : FlowError)
  | outOfRange
deriving DecidableEq, Repr

/-- The frames found so far, whether a place is queued, the queue, the interpreter's record, and
the number of visits. -/
structure Tables (V S : Type) where
  frames : List (Option (Frame V))
  queued : List Bool
  pending : List Nat
  record : S
  steps : Nat

namespace Tables

variable {V S : Type}

/-! ## The computation -/

/-- Takes an entry out of a table. -/
def read {α : Type} (as : List α) (i : Nat) : Except Halt α :=
  match as[i]? with
  | some a => .ok a
  | none => .error .outOfRange

/-- Replaces an entry of a table. -/
def write {α : Type} (as : List α) (i : Nat) (a : α) : Except Halt (List α) :=
  if i < as.length then .ok (as.set i a) else .error .outOfRange

/-- Gives up if the analysis does. -/
def orGiveUp {α : Type} (x : Except FlowError α) : Except Halt α :=
  x.mapError .gaveUp

/-- Stores a frame and queues its place, unless it is queued already. -/
def store (t : Tables V S) (target : Nat) (f : Frame V) : Except Halt (Tables V S) := do
  let frames ← write t.frames target (some f)
  if ← read t.queued target then return { t with frames := frames }
  let queued ← write t.queued target true
  return { t with frames := frames, queued := queued, pending := t.pending ++ [target] }

/-- Merges a frame into the one before `target`, which is queued if that changes it. -/
def propagate [JoinSemilattice V] [DecidableEq V] (t : Tables V S) (target : Nat)
    (f : Frame V) : Except Halt (Tables V S) := do
  match ← read t.frames target with
  | none => t.store target f
  | some old =>
    match old.mergeFrom f with
    | .error cause => .error (.gaveUp (.frame target cause))
    | .ok (_, false) => .ok t
    | .ok (merged, true) => t.store target merged

/-- Follows the edge to an exception handler. -/
def enterHandler [JoinSemilattice V] [DecidableEq V] (I : Interpreter V S) (before : Frame V)
    (t : Tables V S) (h : Handler) : Except Halt (Tables V S) := do
  let entry ← orGiveUp (located h.target (I.handlerEntry t.record before))
  t.propagate h.target entry

/-- Follows the edge from instruction `i` to a normal successor. -/
def enterSuccessor [JoinSemilattice V] [DecidableEq V] (len i : Nat) (after : Frame V)
    (t : Tables V S) (target : Nat) : Except Halt (Tables V S) :=
  if len ≤ target then .error (.gaveUp (.fallsOffEnd i)) else t.propagate target after

/-- Gives up if a slot is not declared. -/
def declaredSlot (i slot : Nat) (f : Frame V) : Except Halt Unit :=
  if slot < f.locals.length then .ok ()
  else .error (.gaveUp (.frame i (.localOutOfRange slot f.locals.length)))

/-- Executes instruction `i`; a slot is looked up once it is known to be declared. -/
def execute (I : Interpreter V S) (s : S) (i : Nat) (instr : Instruction) (f : Frame V) :
    Except Halt (S × Frame V) :=
  match instr with
  | .load slot => do
    declaredSlot i slot f
    let v ← read f.locals slot
    let f ← orGiveUp (located i (f.push v))
    return (s, f)
  | .store slot => do
    let (v, f) ← orGiveUp (located i f.pop)
    declaredSlot i slot f
    let locals ← write f.locals slot v
    return (s, { f with locals := locals })
  | _ => orGiveUp (I.execute s i instr f)

/-- Executes instruction `i` and follows its edges, handlers first. -/
def follow [JoinSemilattice V] [DecidableEq V] (I : Interpreter V S) (m : Method)
    (t : Tables V S) (i : Nat) : Except Halt (Tables V S) := do
  match ← read t.frames i with
  | none => return t
  | some before =>
    let instr ← read m.code i
    let t ← (m.handlersCovering i).foldlM (enterHandler I before) t
    let (record, after) ← execute I t.record i instr before
    (m.successors i).foldlM (enterSuccessor m.code.length i after) { t with record := record }

/-- Visits instruction `i`, which was taken out of the queue already but for its flag. -/
def visit [JoinSemilattice V] [DecidableEq V] (I : Interpreter V S) (m : Method)
    (t : Tables V S) (i : Nat) : Except Halt (Tables V S) := do
  let queued ← write t.queued i false
  follow I m { t with queued := queued, steps := t.steps + 1 } i

/-- Visits queued instructions until none is left; `none` if that takes more visits than are
allowed. -/
def run [JoinSemilattice V] [DecidableEq V] (I : Interpreter V S) (m : Method) :
    Nat → Tables V S → Option (Except Halt (Tables V S))
  | 0, _ => none
  | visits + 1, t =>
    match t.pending with
    | [] => some (.ok t)
    | i :: rest =>
      match visit I m { t with pending := rest } i with
      | .error e => some (.error e)
      | .ok t' => run I m visits t'

/-- The start: only the first instruction is queued, before it a frame of new values. -/
def start (I : Interpreter V S) (s : S) (m : Method) : Except Halt (Tables V S) := do
  let frames ← write (List.replicate m.code.length none) 0
    (some (Frame.new m.maxLocals m.maxStack (I.newValue s)))
  let queued ← write (List.replicate m.code.length false) 0 true
  return ⟨frames, queued, [0], s, 0⟩

/-- The outcome that tables stand for. -/
def finish (t : Tables V S) : Analysis V S :=
  ⟨t.frames, t.record, t.steps⟩

/-- Analyses a method within a number of visits. -/
def analyze [JoinSemilattice V] [DecidableEq V] (I : Interpreter V S) (s : S) (m : Method)
    (visits : Nat) : Option (Except Halt (Analysis V S)) :=
  if m.code.length = 0 then some (.error (.gaveUp .emptyMethod))
  else
    match declarationFault? m with
    | some e => some (.error (.gaveUp e))
    | none =>
      match start I s m with
      | .error e => some (.error e)
      | .ok t => (run I m visits t).map (Except.map finish)

end Tables

/-! ## The tables of a worklist -/

namespace Worklist

variable {V S : Type} {n : Nat}

/-- The state of the worklist as plain tables. -/
def tables (w : Worklist V S n) : Tables V S where
  frames := w.frames.toList
  queued := List.ofFn fun k : Fin n => w.queue.contains k
  pending := w.queue.map Fin.val
  record := w.record
  steps := w.steps

/-- What a computation on tables has to yield where the worklist yields this. -/
def tablesOf (x : Except FlowError (Worklist V S n)) : Except Halt (Tables V S) :=
  Tables.orGiveUp (x.map tables)

end Worklist

namespace Tables

open Worklist (tables tablesOf)

variable {V S : Type} {n : Nat} {w : Worklist V S n} {target : Fin n} {f : Frame V}

theorem ok_bind {ε α β : Type} (a : α) (g : α → Except ε β) : (Except.ok a >>= g) = g a :=
  rfl

theorem read_of_lt {α : Type} {as : List α} {i : Nat} (h : i < as.length) :
    read as i = .ok as[i] := by
  unfold read
  rw [List.getElem?_eq_getElem h]

theorem write_of_lt {α : Type} {as : List α} {i : Nat} (a : α) (h : i < as.length) :
    write as i a = .ok (as.set i a) :=
  if_pos h

/-- Changing the flag of one place where two queues agree on the others. -/
theorem set_flags {q r : List (Fin n)} {b : Bool} (k : Fin n) (hk : r.contains k = b)
    (h : ∀ j, j ≠ k → (j ∈ r ↔ j ∈ q)) :
    (List.ofFn fun j => q.contains j).set k b = List.ofFn fun j => r.contains j := by
  apply List.ext_getElem
  · simp
  · intro j hj hj'
    have hjn : j < n := by simpa using hj'
    rw [List.getElem_set, List.getElem_ofFn, List.getElem_ofFn]
    by_cases heq : (k : Nat) = j
    · obtain rfl : k = ⟨j, hjn⟩ := Fin.ext heq
      rw [if_pos rfl, hk]
    · have hne : (⟨j, hjn⟩ : Fin n) ≠ k := fun hjk => heq (congrArg Fin.val hjk).symm
      rw [if_neg heq]
      simp [h _ hne]

theorem read_frames (w : Worklist V S n) (k : Fin n) :
    read w.tables.frames k = .ok (w.frames.get k) := by
  have hlt : (k : Nat) < w.frames.toList.length := by simp
  exact read_of_lt hlt

theorem read_queued (w : Worklist V S n) (k : Fin n) :
    read w.tables.queued k = .ok (w.queue.contains k) := by
  have hlt : (k : Nat) < w.tables.queued.length := by simp [tables]
  rw [read_of_lt hlt]
  simp [tables]

/-- A frame is stored in the same way. -/
theorem store_tables : w.tables.store target f = .ok (w.store target f).tables := by
  have hframes : write w.tables.frames target (some f) = .ok (w.store target f).tables.frames := by
    rw [write_of_lt (some f) (by simp [tables])]
    simp [tables, Worklist.store, Vector.toList_set]
  unfold store
  rw [hframes, ok_bind, read_queued, ok_bind]
  by_cases hmem : target ∈ w.queue
  · have hqueue := Worklist.queue_store_of_mem (f := f) hmem
    rw [if_pos (by simpa using hmem)]
    simp only [tables, hqueue]
    rfl
  · have hqueue := Worklist.queue_store_of_not_mem (f := f) hmem
    have hqueued : write w.tables.queued target true =
        .ok (w.store target f).tables.queued := by
      rw [write_of_lt true (by simp [tables])]
      refine congrArg Except.ok (set_flags target ?_ ?_)
      · simp [hqueue]
      · intro j hj
        simp [hqueue, hj]
    rw [if_neg (by simpa using hmem), hqueued, ok_bind]
    simp only [tables, hqueue, List.map_append, List.map_singleton]
    rfl

/-- A frame is propagated in the same way. -/
theorem propagate_tables [JoinSemilattice V] [DecidableEq V] (w : Worklist V S n)
    (target : Fin n) (f : Frame V) :
    w.tables.propagate target f = tablesOf (w.propagate target f) := by
  have hread := read_frames w target
  unfold propagate Worklist.propagate
  have hframe : w.frames[target] = w.frames.get target := rfl
  simp only [hread, hframe, bind, Except.bind]
  cases w.frames.get target with
  | none => exact store_tables
  | some old =>
    simp only
    cases old.mergeFrom f with
    | error cause => rfl
    | ok result =>
      obtain ⟨merged, changed⟩ := result
      cases changed with
      | false => rfl
      | true => exact store_tables

theorem orGiveUp_bind {α : Type} {g : α → Except FlowError (Worklist V S n)}
    {g' : α → Except Halt (Tables V S)} (x : Except FlowError α)
    (h : ∀ a, g' a = tablesOf (g a)) : orGiveUp x >>= g' = tablesOf (x >>= g) := by
  cases x with
  | error e => rfl
  | ok a => exact h a

theorem tablesOf_bind {g : Worklist V S n → Except FlowError (Worklist V S n)}
    {g' : Tables V S → Except Halt (Tables V S)} (x : Except FlowError (Worklist V S n))
    (h : ∀ w, g' w.tables = tablesOf (g w)) : tablesOf x >>= g' = tablesOf (x >>= g) := by
  cases x with
  | error e => rfl
  | ok w => exact h w

/-- Steps that are taken in the same way one by one are taken in the same way one after the
other. -/
theorem foldlM_tables {α : Type} {g : Worklist V S n → α → Except FlowError (Worklist V S n)}
    {g' : Tables V S → α → Except Halt (Tables V S)} (as : List α)
    (h : ∀ w, ∀ a ∈ as, g' w.tables a = tablesOf (g w a)) (w : Worklist V S n) :
    as.foldlM g' w.tables = tablesOf (as.foldlM g w) := by
  induction as generalizing w with
  | nil => rfl
  | cons a as ih =>
    rw [List.foldlM_cons, List.foldlM_cons, h w a List.mem_cons_self]
    exact tablesOf_bind _ (ih fun w b hb => h w b (List.mem_cons_of_mem a hb))

section Visits

variable [JoinSemilattice V] [DecidableEq V] {I : Interpreter V S} {m : Method}

/-- A handler within the method is entered in the same way. -/
theorem enterHandler_tables {h : Handler} (hrange : h.target < n) :
    enterHandler I f w.tables h = tablesOf (Worklist.enterHandler I f w h) := by
  rw [Worklist.enterHandler_of_lt hrange]
  exact orGiveUp_bind _ fun entry => propagate_tables w ⟨h.target, hrange⟩ entry

theorem enterSuccessor_tables {i j : Nat} :
    enterSuccessor n i f w.tables j = tablesOf (Worklist.enterSuccessor i f w j) := by
  unfold enterSuccessor Worklist.enterSuccessor
  by_cases hrange : j < n
  · rw [if_neg (Nat.not_le_of_lt hrange), dif_pos hrange]
    exact propagate_tables w ⟨j, hrange⟩ f
  · rw [if_pos (Nat.le_of_not_lt hrange), dif_neg hrange]
    rfl

omit [JoinSemilattice V] [DecidableEq V] in
/-- Slots are looked up where they are declared. -/
theorem execute_eq (s : S) (i : Nat) (instr : Instruction) (f : Frame V) :
    execute I s i instr f = orGiveUp (I.execute s i instr f) := by
  cases instr with
  | load slot =>
    simp only [execute, Interpreter.execute, Interpreter.effect, declaredSlot, Frame.getLocal]
    by_cases hslot : slot < f.locals.length
    · rw [if_pos hslot, read_of_lt hslot, List.getElem?_eq_getElem hslot]
      simp only [bind, Except.bind]
      cases f.push f.locals[slot] with
      | error cause => rfl
      | ok g => rfl
    · rw [if_neg hslot, List.getElem?_eq_none (Nat.le_of_not_lt hslot)]
      rfl
  | store slot =>
    simp only [execute, Interpreter.execute, Interpreter.effect]
    cases f.pop with
    | error cause => rfl
    | ok top =>
      obtain ⟨v, g⟩ := top
      simp only [declaredSlot, Frame.setLocal, orGiveUp, located, Except.mapError, bind,
        Except.bind]
      by_cases hslot : slot < g.locals.length
      · simp only [if_pos hslot, write_of_lt v hslot]
        rfl
      · simp only [if_neg hslot]
  | _ => rfl

/-- If handlers stay within the method, edges are followed in the same way. -/
theorem follow_tables (hm : ∀ h ∈ m.handlers, h.target < m.code.length)
    (w : Worklist V S m.code.length) (i : Fin m.code.length) :
    follow I m w.tables i = tablesOf (w.visit I m i) := by
  have hread := read_frames w i
  unfold follow
  rw [hread]
  cases hframe : w.frames.get i with
  | none =>
    rw [Worklist.visit_of_none hframe]
    rfl
  | some before =>
    have hframe' : w.frames[i] = some before := hframe
    have hcode : read m.code i = .ok m.code[i] := read_of_lt i.isLt
    have hhandlers : ∀ v : Worklist V S m.code.length, ∀ h ∈ m.handlersCovering i,
        enterHandler I before v.tables h = tablesOf (v.enterHandler I before h) := by
      intro v h hmem
      exact enterHandler_tables (hm h (List.mem_of_mem_filter hmem))
    unfold Worklist.visit
    rw [hframe', ok_bind]
    simp only
    rw [hcode, ok_bind, foldlM_tables _ hhandlers]
    refine tablesOf_bind _ fun v => ?_
    rw [execute_eq]
    refine orGiveUp_bind _ fun outcome => ?_
    exact foldlM_tables _ (fun _ _ _ => enterSuccessor_tables) { v with record := outcome.1 }

/-- A visit to the first place of the queue is made in the same way. -/
theorem visit_tables (hm : ∀ h ∈ m.handlers, h.target < m.code.length)
    {w : Worklist V S m.code.length} (htidy : w.Tidy) {i : Fin m.code.length}
    {rest : List (Fin m.code.length)} (hq : w.queue = i :: rest) :
    visit I m { w.tables with pending := rest.map Fin.val } i =
      tablesOf (Worklist.visit I m (w.dequeued rest) i) := by
  -- the place is in the queue only once, so its flag is cleared for good
  have hi : i ∉ rest := (htidy.dequeued hq).2
  have hqueued : write w.tables.queued i false = .ok (w.dequeued rest).tables.queued := by
    rw [write_of_lt false (by simp [tables])]
    refine congrArg Except.ok (set_flags i ?_ ?_)
    · simpa [Worklist.dequeued] using hi
    · intro j hj
      simp [Worklist.dequeued, hq, hj]
  unfold visit
  rw [hqueued, ok_bind]
  exact follow_tables hm (w.dequeued rest) i

/-! ## Runs -/

/-- A run makes the visit that the worklist makes, and goes on from the tables of its outcome. -/
theorem run_of_cons (hm : ∀ h ∈ m.handlers, h.target < m.code.length)
    {w : Worklist V S m.code.length} (htidy : w.Tidy) {i : Fin m.code.length}
    {rest : List (Fin m.code.length)} (hq : w.queue = i :: rest) (visits : Nat) :
    run I m (visits + 1) w.tables =
      match Worklist.visit I m (w.dequeued rest) i with
      | .error e => some (.error (.gaveUp e))
      | .ok w' => run I m visits w'.tables := by
  have hpending : w.tables.pending = (i : Nat) :: rest.map Fin.val := by simp [tables, hq]
  rw [run, hpending]
  simp only [visit_tables hm htidy hq]
  cases Worklist.visit I m (w.dequeued rest) i with
  | error e => rfl
  | ok w' => rfl

/-- Enough visits on tables lead to where the worklist ends. -/
theorem run_tables (hm : ∀ h ∈ m.handlers, h.target < m.code.length)
    {w : Worklist V S m.code.length} {outcome : Except FlowError (Worklist V S m.code.length)}
    (hends : Worklist.Ends I m w outcome) (htidy : w.Tidy) :
    ∃ visits, run I m visits w.tables = some (tablesOf outcome) := by
  induction hends with
  | @done w hq =>
    have hpending : w.tables.pending = [] := by simp [tables, hq]
    refine ⟨1, ?_⟩
    rw [run, hpending]
    rfl
  | failed hq hvisit =>
    refine ⟨1, ?_⟩
    rw [run_of_cons hm htidy hq, hvisit]
    rfl
  | visited hq hvisit _ ih =>
    obtain ⟨visits, hrun⟩ := ih (Worklist.visit_tidy (htidy.dequeued hq).1 hvisit)
    refine ⟨visits + 1, ?_⟩
    rw [run_of_cons hm htidy hq, hvisit]
    exact hrun

omit [DecidableEq V] [JoinSemilattice V] in
theorem start_tables (s : S) (hne : 0 < m.code.length) :
    start I s m = .ok (Worklist.initial I s m hne).tables := by
  have hflags : (List.replicate m.code.length false).set 0 true =
      (Worklist.initial I s m hne).tables.queued := by
    rw [← List.ofFn_const]
    refine set_flags (q := []) ⟨0, hne⟩ ?_ ?_
    · simp [Worklist.initial]
    · intro j hj
      simp [Worklist.initial, hj]
  have hframes : (Worklist.initial I s m hne).tables.frames =
      (List.replicate m.code.length none).set 0
        (some (Frame.new m.maxLocals m.maxStack (I.newValue s))) := by
    simp [Worklist.tables, Worklist.initial, Vector.toList_set]
  unfold start
  rw [write_of_lt _ (by simpa using hne), ok_bind, write_of_lt _ (by simpa using hne), ok_bind,
    hflags, ← hframes]
  rfl

/-- The analysis on tables stays within them, and ends as the analysis does. -/
theorem analyze_tables {s : S} {outcome : Except FlowError (Analysis V S)}
    (h : Analyzes I s m outcome) :
    ∃ visits, analyze I s m visits = some (orGiveUp outcome) := by
  have hrun : ∀ (hne : 0 < m.code.length) end', declarationFault? m = none →
      Worklist.Ends I m (Worklist.initial I s m hne) end' →
      ∃ visits, analyze I s m visits = some ((tablesOf end').map finish) := by
    intro hne end' hfault hends
    have hm := (declarationFault?_eq_none_iff hne).1 hfault
    obtain ⟨visits, hvisits⟩ := run_tables (fun h hmem => (hm.handlers h hmem).2.2) hends
      (Worklist.initial_tidy s hne)
    refine ⟨visits, ?_⟩
    unfold analyze
    rw [if_neg (by omega), hfault, start_tables s hne]
    simp only [hvisits, Option.map_some]
  cases h with
  | empty hne => exact ⟨0, if_pos (by omega)⟩
  | faulty hne hfault =>
    refine ⟨0, ?_⟩
    unfold analyze
    rw [if_neg (by omega), hfault]
    rfl
  | failed hne hfault hends => exact hrun hne _ hfault hends
  | done hne hfault hends => exact hrun hne _ hfault hends

-- without the check of declarations, a handler behind the end is looked up
example : follow taint ⟨"run", "()V", true, 0, none, [.ret], [⟨0, 1, 7, none⟩], []⟩
    ⟨[some ⟨[], [], none⟩], [false], [], [], 1⟩ 0 = .error .outOfRange := rfl

end Visits
end Tables
end PoolLint.Flow

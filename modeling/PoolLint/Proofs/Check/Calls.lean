import Mathlib.Data.List.Nodup
import PoolLint.Check.Context
import PoolLint.Proofs.Flow.Lockstep

/-!
# The calls of a class and their roles

Calls are listed method by method in instruction order, and precise checks in the order of the
calls. Both lists are described by their members and their order; after this file nothing else
is said about how they are computed.
-/

namespace PoolLint

open PoolLint.Bytecode PoolLint.Flow

/-- Comes before another place in the class. -/
def Site.Before (a b : Site) : Prop :=
  a.1 < b.1 ∨ a.1 = b.1 ∧ a.2 < b.2

theorem Site.Before.ne {a b : Site} (h : Before a b) : a ≠ b := by
  rintro rfl
  unfold Before at h
  omega

theorem Site.Before.not_before {a b : Site} (h : Before a b) : ¬Before b a := by
  unfold Before at *
  omega

/-! ## Calls -/

theorem mem_calls {m : Method} {i : Nat} {call : CallSite} :
    (i, call) ∈ m.calls ↔ m.code[i]? = some (.invoke call) := by
  unfold Method.calls
  rw [List.mem_filterMap]
  constructor
  · rintro ⟨⟨instr, j⟩, hmem, hcall⟩
    obtain ⟨site, hsite, heq⟩ := Option.map_eq_some_iff.1 hcall
    obtain ⟨rfl, rfl⟩ := Prod.mk.inj heq
    rw [List.mem_zipIdx_iff_getElem?.1 hmem]
    cases instr with
    | invoke site' => exact congrArg (fun s => some (Instruction.invoke s)) (Option.some.inj hsite)
    | _ => cases hsite
  · intro h
    exact ⟨(.invoke call, i), List.mem_zipIdx_iff_getElem?.2 h, rfl⟩

theorem zipIdx_sorted {α : Type} (as : List α) : as.zipIdx.Pairwise fun a b => a.2 < b.2 := by
  have hrange : (List.range' 0 as.length).Pairwise (· < ·) := List.pairwise_lt_range'
  rw [← List.zipIdx_map_snd, List.pairwise_map] at hrange
  exact hrange

theorem calls_sorted (m : Method) : m.calls.Pairwise fun a b => a.1 < b.1 := by
  unfold Method.calls
  rw [List.pairwise_filterMap]
  refine (zipIdx_sorted m.code).imp ?_
  intro a b hab x hx y hy
  obtain ⟨_, -, rfl⟩ := Option.map_eq_some_iff.1 hx
  obtain ⟨_, -, rfl⟩ := Option.map_eq_some_iff.1 hy
  exact hab

/-- A call of a class is a call instruction of one of its methods. -/
theorem mem_classCalls {unit : ClassFile} {j i : Nat} {call : CallSite} :
    ⟨(j, i), call⟩ ∈ classCalls unit ↔
      ∃ m, unit.methods[j]? = some m ∧ m.code[i]? = some (.invoke call) := by
  unfold classCalls
  rw [List.mem_flatMap]
  constructor
  · rintro ⟨⟨m, method⟩, hmethod, hcall⟩
    obtain ⟨⟨i', call'⟩, hmem, heq⟩ := List.mem_map.1 hcall
    obtain ⟨hsite, rfl⟩ := PlacedCall.mk.inj heq
    obtain ⟨rfl, rfl⟩ := Prod.mk.inj hsite
    exact ⟨m, List.mem_zipIdx_iff_getElem?.1 hmethod, mem_calls.1 hmem⟩
  · rintro ⟨m, hmethod, hcode⟩
    exact ⟨(m, j), List.mem_zipIdx_iff_getElem?.2 hmethod,
      List.mem_map.2 ⟨(i, call), mem_calls.2 hcode, rfl⟩⟩

theorem classCalls_sorted (unit : ClassFile) :
    (classCalls unit).Pairwise fun a b => Site.Before a.site b.site := by
  unfold classCalls
  rw [List.pairwise_flatMap]
  refine ⟨?_, ?_⟩
  · rintro ⟨m, method⟩ -
    rw [List.pairwise_map]
    exact (calls_sorted m).imp fun hab => .inr ⟨rfl, hab⟩
  · refine (zipIdx_sorted unit.methods).imp ?_
    intro a b hab x hx y hy
    obtain ⟨_, -, rfl⟩ := List.mem_map.1 hx
    obtain ⟨_, -, rfl⟩ := List.mem_map.1 hy
    exact .inl hab

/-! ## Roles -/

section Roles

variable {t : ResourceTable} {call : CallSite} {id : Nat}

theorem ResourceTable.classify_eq_release_iff : t.classify call = some (.release id) ↔
    t.kinds.findIdx? (·.isRelease call) = some id := by
  unfold classify
  cases t.kinds.findIdx? (·.isRelease call) with
  | none => simp
  | some k => simp

theorem ResourceTable.classify_eq_obtain_iff : t.classify call = some (.obtain id) ↔
    t.kinds.findIdx? (·.isRelease call) = none ∧
      t.kinds.findIdx? (·.isObtain call) = some id := by
  unfold classify
  cases t.kinds.findIdx? (·.isRelease call) with
  | none => simp
  | some k => simp

/-- A role refers to a kind of the table. -/
theorem lt_of_classify_obtain (h : t.classify call = some (.obtain id)) : id < t.kinds.length := by
  obtain ⟨-, hfirst⟩ := ResourceTable.classify_eq_obtain_iff.1 h
  exact (List.findIdx?_eq_some_iff_getElem.1 hfirst).1

theorem lt_of_classify_release (h : t.classify call = some (.release id)) :
    id < t.kinds.length :=
  (List.findIdx?_eq_some_iff_getElem.1 (ResourceTable.classify_eq_release_iff.1 h)).1

/-- A call releases the first kind of the table whose release it is. -/
theorem releases_iff_first : t.classify call = some (.release id) ↔ ∃ kind,
    t.kind? id = some kind ∧ kind.isRelease call = true ∧
      ∀ earlier ∈ t.kinds.take id, earlier.isRelease call = false := by
  rw [ResourceTable.classify_eq_release_iff, List.findIdx?_eq_some_iff_getElem]
  constructor
  · rintro ⟨hid, hrelease, hbefore⟩
    refine ⟨_, List.getElem?_eq_getElem hid, hrelease, ?_⟩
    intro earlier hmem
    obtain ⟨j, hj, rfl⟩ := List.mem_take_iff_getElem.1 hmem
    exact Bool.not_eq_true _ ▸ hbefore j (by omega)
  · rintro ⟨kind, hkind, hrelease, hbefore⟩
    obtain ⟨hid, rfl⟩ := List.getElem?_eq_some_iff.1 hkind
    refine ⟨hid, hrelease, ?_⟩
    intro j hj hreleased
    have hmem : t.kinds[j] ∈ t.kinds.take id :=
      List.mem_take_iff_getElem.2 ⟨j, by omega, rfl⟩
    rw [hbefore _ hmem] at hreleased
    cases hreleased

end Roles

/-- Instruction `i` of method `j` obtains an instance of the kind at a position of the table. -/
structure ObtainedAt (t : ResourceTable) (unit : ClassFile) (j i id : Nat) (kind : ResourceKind)
    (m : Method) : Prop where
  method : unit.methods[j]? = some m
  call : ∃ call, m.code[i]? = some (.invoke call) ∧ t.classify call = some (.obtain id)
  kind : t.kind? id = some kind

/-- A place obtains an instance of one kind at most. -/
theorem ObtainedAt.unique {t : ResourceTable} {unit : ClassFile} {j i id id' : Nat}
    {kind kind' : ResourceKind} {m m' : Method} (h : ObtainedAt t unit j i id kind m)
    (h' : ObtainedAt t unit j i id' kind' m') : id = id' ∧ kind = kind' ∧ m = m' := by
  obtain rfl : m = m' := Option.some.inj (h.method.symm.trans h'.method)
  obtain ⟨call, hcode, hrole⟩ := h.call
  obtain ⟨call', hcode', hrole'⟩ := h'.call
  obtain rfl := Instruction.invoke.inj (Option.some.inj (hcode.symm.trans hcode'))
  obtain rfl := CallRole.obtain.inj (Option.some.inj (hrole.symm.trans hrole'))
  exact ⟨rfl, Option.some.inj (h.kind.symm.trans h'.kind), rfl⟩

/-- Some call of the class releases the kind at a position of the table. -/
def ReleasedIn (t : ResourceTable) (unit : ClassFile) (id : Nat) : Prop :=
  ∃ (j i : Nat) (m : Method) (call : CallSite), unit.methods[j]? = some m ∧
    m.code[i]? = some (.invoke call) ∧ t.classify call = some (.release id)

theorem obtainedAt_iff {t : ResourceTable} {unit : ClassFile} {j i id : Nat} :
    (∃ kind m, ObtainedAt t unit j i id kind m) ↔
      ∃ call, ⟨(j, i), call⟩ ∈ classCalls unit ∧ t.classify call = some (.obtain id) := by
  constructor
  · rintro ⟨kind, m, hmethod, ⟨call, hcode, hrole⟩, -⟩
    exact ⟨call, mem_classCalls.2 ⟨m, hmethod, hcode⟩, hrole⟩
  · rintro ⟨call, hmem, hrole⟩
    obtain ⟨m, hmethod, hcode⟩ := mem_classCalls.1 hmem
    exact ⟨_, m, hmethod, ⟨call, hcode, hrole⟩,
      List.getElem?_eq_getElem (lt_of_classify_obtain hrole)⟩

theorem releasedIn_iff {t : ResourceTable} {unit : ClassFile} {id : Nat} :
    ReleasedIn t unit id ↔
      ∃ placed ∈ classCalls unit, t.classify placed.call = some (.release id) := by
  constructor
  · rintro ⟨j, i, m, call, hmethod, hcode, hrole⟩
    exact ⟨⟨(j, i), call⟩, mem_classCalls.2 ⟨m, hmethod, hcode⟩, hrole⟩
  · rintro ⟨⟨⟨j, i⟩, call⟩, hmem, hrole⟩
    obtain ⟨m, hmethod, hcode⟩ := mem_classCalls.1 hmem
    exact ⟨j, i, m, call, hmethod, hcode, hrole⟩

/-! ## Precise checks -/

section Outcomes

variable {t : ResourceTable} {unit : ClassFile}

theorem flowJob?_eq_some {placed : PlacedCall} {job : FlowJob} :
    flowJob? t placed = some job ↔ job.site = placed.site ∧
      t.classify placed.call = some (.obtain job.kind) ∧
        ∃ kind, t.kind? job.kind = some kind ∧ kind.flowChecked = true := by
  unfold flowJob?
  constructor
  · intro h
    split at h
    · rename_i id hrole
      split_ifs at h with hchecked
      obtain rfl := Option.some.inj h
      obtain ⟨kind, hkind, hflow⟩ := (Option.any_eq_true _ _).1 hchecked
      exact ⟨rfl, hrole, kind, hkind, hflow⟩
    · cases h
  · rintro ⟨hsite, hrole, kind, hkind, hflow⟩
    rw [hrole]
    have hchecked : (t.kind? job.kind).any (·.flowChecked) = true := by
      rw [hkind]
      exact hflow
    simp only
    rw [if_pos hchecked, ← hsite]

theorem runJob_eq_some {job : FlowJob} {o : FlowOutcome} :
    runJob t unit job = some o ↔ ∃ m kind, unit.methods[job.site.1]? = some m ∧
      t.kind? job.kind = some kind ∧ o = ⟨job, checkMethodFlow m job.site.2 kind⟩ := by
  unfold runJob
  constructor
  · intro h
    obtain ⟨m, hm, h⟩ := Option.bind_eq_some_iff.1 h
    obtain ⟨kind, hkind, h⟩ := Option.bind_eq_some_iff.1 h
    exact ⟨m, kind, hm, hkind, (Option.some.inj h).symm⟩
  · rintro ⟨m, kind, hm, hkind, rfl⟩
    rw [hm, hkind]
    rfl

/-- A precise check is made at each place where an instance of a flow-checked kind is obtained,
and nowhere else. -/
theorem mem_flowOutcomes {o : FlowOutcome} :
    o ∈ flowOutcomes t unit ↔ ∃ kind m,
      ObtainedAt t unit o.job.site.1 o.job.site.2 o.job.kind kind m ∧ kind.flowChecked = true ∧
        o.result = checkMethodFlow m o.job.site.2 kind := by
  unfold flowOutcomes
  rw [List.mem_filterMap]
  constructor
  · rintro ⟨job, hjob, hrun⟩
    obtain ⟨⟨site, call⟩, hmem, hplaced⟩ := List.mem_filterMap.1 hjob
    obtain ⟨hsite, hrole, kind, hkind, hflow⟩ := flowJob?_eq_some.1 hplaced
    obtain ⟨m, kind', hm, hkind', rfl⟩ := runJob_eq_some.1 hrun
    obtain rfl : kind' = kind := Option.some.inj (hkind'.symm.trans hkind)
    obtain rfl : job.site = site := hsite
    obtain ⟨m', hm', hcode⟩ := mem_classCalls.1 hmem
    obtain rfl : m' = m := Option.some.inj (hm'.symm.trans hm)
    exact ⟨kind', m', ⟨hm, ⟨call, hcode, hrole⟩, hkind⟩, hflow, rfl⟩
  · rintro ⟨kind, m, ⟨hm, ⟨call, hcode, hrole⟩, hkind⟩, hflow, hresult⟩
    refine ⟨o.job, List.mem_filterMap.2 ⟨⟨o.job.site, call⟩, mem_classCalls.2 ⟨m, hm, hcode⟩,
      flowJob?_eq_some.2 ⟨rfl, hrole, kind, hkind, hflow⟩⟩, ?_⟩
    refine runJob_eq_some.2 ⟨m, kind, hm, hkind, ?_⟩
    rw [← hresult]

theorem flowOutcomes_sorted (t : ResourceTable) (unit : ClassFile) :
    (flowOutcomes t unit).Pairwise fun a b => Site.Before a.job.site b.job.site := by
  unfold flowOutcomes
  rw [List.pairwise_filterMap, List.pairwise_filterMap]
  refine (classCalls_sorted unit).imp ?_
  intro a b hab job hjob job' hjob' o ho o' ho'
  obtain ⟨-, -, -, -, rfl⟩ := runJob_eq_some.1 ho
  obtain ⟨-, -, -, -, rfl⟩ := runJob_eq_some.1 ho'
  show Site.Before job.site job'.site
  rw [(flowJob?_eq_some.1 hjob).1, (flowJob?_eq_some.1 hjob').1]
  exact hab

/-- The checks listed before one of them are those of the places before its place. -/
theorem mem_before_iff {before after : List FlowOutcome} {o o' : FlowOutcome}
    (h : flowOutcomes t unit = before ++ o :: after) :
    o' ∈ before ↔ o' ∈ flowOutcomes t unit ∧ Site.Before o'.job.site o.job.site := by
  have hsorted := flowOutcomes_sorted t unit
  rw [h] at hsorted ⊢
  obtain ⟨-, htail, hacross⟩ := List.pairwise_append.1 hsorted
  constructor
  · intro hmem
    exact ⟨List.mem_append_left _ hmem, hacross o' hmem o List.mem_cons_self⟩
  · rintro ⟨hmem, hbefore⟩
    rcases List.mem_append.1 hmem with hmem | hmem
    · exact hmem
    · rcases List.mem_cons.1 hmem with rfl | hmem
      · exact absurd rfl hbefore.ne
      · exact absurd hbefore (List.rel_of_pairwise_cons htail hmem).not_before

end Outcomes
end PoolLint

import Mathlib.Data.List.Flatten
import Mathlib.Data.List.Perm.Basic
import PoolLint.Report.Diagnostic

/-!
# The order of diagnostics

Diagnostics are compared by location, code and message, and two of them tie if they agree in these
(`Diagnostic.ties_iff`). Sorting keeps tied diagnostics in the order in which they came, so a sorted
list depends on where its diagnostics came from through ties only (`Diagnostic.sort_eq_iff`).

Diagnostics are collected in batches, one from each class. The sorted list is the same for every
order of the batches exactly if what ties in one batch commutes with what ties in another
(`Collector.sorted_ofBatches_iff`).
-/

namespace PoolLint

open Std

/-! ## Comparisons -/

section Comparisons

variable {α β : Type}

instance : TransCmp compareText :=
  inferInstanceAs (TransOrd String)

instance : LawfulEqCmp compareText :=
  inferInstanceAs (LawfulEqOrd String)

instance : TransCmp compareNat :=
  inferInstanceAs (TransOrd Nat)

instance : LawfulEqCmp compareNat :=
  inferInstanceAs (LawfulEqOrd Nat)

instance {cmp : α → α → Ordering} [TransCmp cmp] : TransCmp (compareOption cmp) where
  eq_swap {a b} := by
    cases a <;> cases b <;> simp only [compareOption, Ordering.swap_eq, Ordering.swap_lt,
      Ordering.swap_gt]
    exact OrientedCmp.eq_swap
  isLE_trans {a b c} hab hbc := by
    cases a <;> cases b <;> cases c <;> simp only [compareOption] at *
    all_goals first | exact TransCmp.isLE_trans hab hbc | contradiction | rfl

instance {cmp : α → α → Ordering} [LawfulEqCmp cmp] : LawfulEqCmp (compareOption cmp) where
  compare_self {a} := by
    cases a with
    | none => rfl
    | some a => exact (ReflCmp.compare_self : cmp a a = .eq)
  eq_of_compare {a b} h := by
    cases a <;> cases b <;> simp only [compareOption] at h
    · rfl
    · contradiction
    · contradiction
    · rw [LawfulEqCmp.eq_of_compare h]

/-- Comparing by a part. -/
theorem transCmp_on {cmp : β → β → Ordering} (h : TransCmp cmp) (f : α → β) :
    TransCmp fun a b => cmp (f a) (f b) where
  eq_swap := OrientedCmp.eq_swap
  isLE_trans hab hbc := TransCmp.isLE_trans hab hbc

theorem isLE_total {cmp : α → α → Ordering} [OrientedCmp cmp] (a b : α) :
    ((cmp a b).isLE || (cmp b a).isLE) = true := by
  have hswap : cmp b a = (cmp a b).swap := OrientedCmp.eq_swap
  rw [hswap]
  cases cmp a b <;> rfl

/-- Comparing by one thing first and by another one where that does not decide. -/
theorem transCmp_then {cmp cmp' : α → α → Ordering} (h : TransCmp cmp) (h' : TransCmp cmp') :
    TransCmp fun a b => (cmp a b).then (cmp' a b) :=
  inferInstanceAs (TransCmp (compareLex cmp cmp'))

end Comparisons

instance : TransCmp Location.compare :=
  transCmp_then (transCmp_on inferInstance Location.file) <|
  transCmp_then (transCmp_on inferInstance Location.className) <|
  transCmp_then (transCmp_on inferInstance Location.method) <|
  transCmp_then (transCmp_on inferInstance Location.instruction) <|
  transCmp_on inferInstance Location.line

instance : LawfulEqCmp Location.compare where
  compare_self := by simp [Location.compare]
  eq_of_compare {a b} h := by
    cases a
    cases b
    simpa [Location.compare] using h

namespace Diagnostic

variable {d e : Diagnostic} {ds ds' : List Diagnostic}

instance : TransCmp compareKey :=
  transCmp_then (transCmp_on inferInstance Diagnostic.location) <|
  transCmp_then (transCmp_on inferInstance Diagnostic.code) <|
  transCmp_on inferInstance Diagnostic.message

/-- Neither of the two comes before the other. -/
def ties (d e : Diagnostic) : Bool :=
  (compareKey d e).isEq

theorem ties_iff :
    d.ties e = true ↔ d.location = e.location ∧ d.code = e.code ∧ d.message = e.message := by
  simp [ties, compareKey]

theorem ties_self (d : Diagnostic) : d.ties d = true :=
  ties_iff.2 ⟨rfl, rfl, rfl⟩

theorem ties_of_ties {k : Diagnostic} (h : k.ties d = true) (h' : k.ties e = true) :
    d.ties e = true := by
  obtain ⟨hloc, hcode, hmessage⟩ := ties_iff.1 h
  obtain ⟨hloc', hcode', hmessage'⟩ := ties_iff.1 h'
  exact ties_iff.2 ⟨hloc.symm.trans hloc', hcode.symm.trans hcode', hmessage.symm.trans hmessage'⟩

theorem le_of_ties (h : d.ties e = true) : le d e = true := by
  unfold le
  rw [Ordering.isEq_iff_eq_eq.1 h]
  rfl

theorem ties_of_le_of_le (h : le d e = true) (h' : le e d = true) : d.ties e = true :=
  Ordering.isEq_iff_eq_eq.2 (OrientedCmp.isLE_antisymm h h')

theorem le_trans (a b c : Diagnostic) (hab : le a b = true) (hbc : le b c = true) :
    le a c = true :=
  TransCmp.isLE_trans hab hbc

theorem le_total (a b : Diagnostic) : (le a b || le b a) = true :=
  isLE_total a b

/-! ## Sorting -/

theorem sort_perm (ds : List Diagnostic) : (sort ds).Perm ds :=
  List.mergeSort_perm ds le

theorem sort_pairwise (ds : List Diagnostic) : (sort ds).Pairwise fun a b => le a b = true :=
  List.pairwise_mergeSort le_trans le_total ds

/-- Tied diagnostics stay in the order in which they came. -/
theorem filter_ties_sort (d : Diagnostic) (ds : List Diagnostic) :
    (sort ds).filter d.ties = ds.filter d.ties := by
  have hsorted : (ds.filter d.ties).Pairwise fun a b => le a b = true := by
    refine List.pairwise_of_forall_mem_list ?_
    intro a ha b hb
    exact le_of_ties (ties_of_ties (List.mem_filter.1 ha).2 (List.mem_filter.1 hb).2)
  have hsublist : (ds.filter d.ties).Sublist (sort ds) :=
    List.sublist_mergeSort le_trans le_total hsorted List.filter_sublist
  have hfilter : (ds.filter d.ties).Sublist ((sort ds).filter d.ties) := by
    simpa [List.filter_filter] using hsublist.filter d.ties
  have hlength : ((sort ds).filter d.ties).length = (ds.filter d.ties).length :=
    ((sort_perm ds).filter d.ties).length_eq
  exact (hfilter.eq_of_length hlength.symm).symm

/-- Two lists in order that have the same members, and what ties in the same order, are the
same. -/
theorem eq_of_filter_ties (hds : ds.Pairwise fun a b => le a b = true)
    (hds' : ds'.Pairwise fun a b => le a b = true) (hperm : ds.Perm ds')
    (hties : ∀ d : Diagnostic, ds.filter d.ties = ds'.filter d.ties) : ds = ds' := by
  induction ds generalizing ds' with
  | nil => exact hperm.nil_eq
  | cons a ds ih =>
    cases ds' with
    | nil => exact hperm.eq_nil
    | cons b ds' =>
      rw [List.pairwise_cons] at hds hds'
      have hfirst : ∀ x ∈ a :: ds, le a x = true :=
        List.forall_mem_cons.2 ⟨le_of_ties (ties_self a), hds.1⟩
      have hfirst' : ∀ x ∈ b :: ds', le b x = true :=
        List.forall_mem_cons.2 ⟨le_of_ties (ties_self b), hds'.1⟩
      -- the two heads tie, and each is the first of what ties with `a`
      have htie : a.ties b = true :=
        ties_of_le_of_le (hfirst b (hperm.mem_iff.2 List.mem_cons_self))
          (hfirst' a (hperm.mem_iff.1 List.mem_cons_self))
      have hheads := hties a
      rw [List.filter_cons_of_pos (ties_self a), List.filter_cons_of_pos htie] at hheads
      obtain rfl : a = b := (List.cons.inj hheads).1
      rw [ih hds.2 hds'.2 (List.perm_cons a |>.1 hperm)]
      intro d
      have hd := hties d
      rw [List.filter_cons, List.filter_cons] at hd
      split_ifs at hd
      · exact (List.cons.inj hd).2
      · exact hd

/-- Diagnostics in two orders sort into the same list exactly if what ties comes in the same
order. -/
theorem sort_eq_iff (hperm : ds.Perm ds') :
    sort ds = sort ds' ↔ ∀ d : Diagnostic, ds.filter d.ties = ds'.filter d.ties := by
  constructor
  · intro heq d
    rw [← filter_ties_sort d ds, heq, filter_ties_sort]
  · intro hties
    have hmembers : (sort ds).Perm (sort ds') :=
      ((sort_perm ds).trans hperm).trans (sort_perm ds').symm
    refine eq_of_filter_ties (sort_pairwise ds) (sort_pairwise ds') hmembers ?_
    intro d
    rw [filter_ties_sort, filter_ties_sort]
    exact hties d

/-- If no two different diagnostics tie, their order does not matter. -/
theorem sort_eq_of_perm (hties : ∀ d ∈ ds, ∀ e ∈ ds, d.ties e = true → d = e)
    (hperm : ds.Perm ds') : sort ds = sort ds' := by
  have hmembers : (sort ds).Perm (sort ds') :=
    ((sort_perm ds).trans hperm).trans (sort_perm ds').symm
  refine hmembers.eq_of_pairwise ?_ (sort_pairwise ds) (sort_pairwise ds')
  intro d e hd he hde hed
  exact hties d ((sort_perm ds).mem_iff.1 hd) e
    (hperm.mem_iff.2 ((sort_perm ds').mem_iff.1 he)) (ties_of_le_of_le hde hed)

/-- A diagnostic is put before the first one that it may precede. -/
theorem sort_cons (a : Diagnostic) (ds : List Diagnostic) :
    sort (a :: ds) = (sort ds).filter (fun b => !le a b) ++ a :: (sort ds).filter (le a) := by
  obtain ⟨before, after, hsort, hrest, hbefore⟩ := List.mergeSort_cons le_trans le_total a ds
  have hsorted := sort_pairwise (a :: ds)
  have hafter : ∀ b ∈ after, le a b = true := by
    rw [sort, hsort, List.pairwise_append] at hsorted
    exact (List.pairwise_cons.1 hsorted.2.1).1
  have hnone : after.filter (fun b => !le a b) = [] := by
    rw [List.filter_eq_nil_iff]
    intro b hb
    simp [hafter b hb]
  have hnone' : before.filter (le a) = [] := by
    rw [List.filter_eq_nil_iff]
    intro b hb
    simpa using hbefore b hb
  rw [sort, sort, hsort, hrest, List.filter_append, List.filter_append,
    List.filter_eq_self.2 hbefore, List.filter_eq_self.2 hafter, hnone, hnone', List.append_nil,
    List.nil_append]

/-- Leaving diagnostics out does not change the order of the others. -/
theorem sort_sublist (h : ds.Sublist ds') : (sort ds).Sublist (sort ds') := by
  induction h with
  | slnil => exact List.Sublist.refl _
  | @cons _ ds' a _ ih =>
    obtain ⟨before, after, hsort, hrest, -⟩ := List.mergeSort_cons le_trans le_total a ds'
    rw [sort, sort, hrest] at ih
    rw [sort, sort, hsort]
    exact ih.middle a
  | cons_cons a _ ih =>
    rw [sort_cons, sort_cons]
    exact (ih.filter _).append ((ih.filter _).cons_cons a)

theorem sort_filter (p : Diagnostic → Bool) (ds : List Diagnostic) :
    sort (ds.filter p) = (sort ds).filter p := by
  have hsublist : (sort (ds.filter p)).Sublist (sort ds) := sort_sublist List.filter_sublist
  have hself : (sort (ds.filter p)).filter p = sort (ds.filter p) := by
    rw [List.filter_eq_self]
    intro d hd
    exact (List.mem_filter.1 ((sort_perm _).mem_iff.1 hd)).2
  have hfilter := hsublist.filter p
  rw [hself] at hfilter
  refine hfilter.eq_of_length ?_
  rw [(sort_perm _).length_eq, ((sort_perm ds).filter p).length_eq]

/-- Sorting does not look at anything but what is compared. -/
theorem map_sort {f : Diagnostic → Diagnostic} (hf : ∀ d, (f d).ties d = true)
    (ds : List Diagnostic) : (sort ds).map f = sort (ds.map f) := by
  refine List.map_mergeSort ?_
  intro a _ b _
  obtain ⟨hloc, hcode, hmessage⟩ := ties_iff.1 (hf a)
  obtain ⟨hloc', hcode', hmessage'⟩ := ties_iff.1 (hf b)
  unfold le compareKey
  rw [hloc, hcode, hmessage, hloc', hcode', hmessage']

end Diagnostic

/-! ## Batches -/

namespace Collector

open Diagnostic

/-- Diagnostics collected in batches. -/
def ofBatches (batches : List (List Diagnostic)) : Collector :=
  batches.foldl extend .empty

variable {batches batches' : List (List Diagnostic)}

theorem submitted_ofBatches (batches : List (List Diagnostic)) :
    (ofBatches batches).submitted = batches.flatten := by
  have hfold : ∀ c : Collector,
      (batches.foldl extend c).submitted = c.submitted ++ batches.flatten := by
    induction batches with
    | nil => simp
    | cons batch batches ih => simp [ih, extend]
  exact hfold .empty

theorem sorted_ofBatches (batches : List (List Diagnostic)) :
    (ofBatches batches).sorted = sort batches.flatten := by
  unfold sorted
  rw [submitted_ofBatches]

/-- What ties in one batch commutes with what ties in the other. -/
def Commuting (batch batch' : List Diagnostic) : Prop :=
  ∀ d : Diagnostic, batch.filter d.ties ++ batch'.filter d.ties =
    batch'.filter d.ties ++ batch.filter d.ties

theorem Commuting.symm {batch batch' : List Diagnostic} (h : Commuting batch batch') :
    Commuting batch' batch :=
  fun d => (h d).symm

/-- Batches commute if nothing in the one ties with something different in the other. -/
theorem commuting_of_ties {batch batch' : List Diagnostic}
    (h : ∀ d ∈ batch, ∀ e ∈ batch', d.ties e = true → d = e) : Commuting batch batch' := by
  intro k
  have hsame : ∀ d ∈ batch.filter k.ties, ∀ e ∈ batch'.filter k.ties, d = e := by
    intro d hd e he
    rw [List.mem_filter] at hd he
    exact h d hd.1 e he.1 (ties_of_ties hd.2 he.2)
  cases hleft : batch.filter k.ties with
  | nil => simp
  | cons d ds =>
    cases hright : batch'.filter k.ties with
    | nil => simp
    | cons e es =>
      -- all of them are `d`
      rw [hleft, hright] at hsame
      have hes : e :: es = List.replicate (e :: es).length d :=
        List.eq_replicate_of_mem fun x hx => (hsame d List.mem_cons_self x hx).symm
      have hde : d = e := hsame d List.mem_cons_self e List.mem_cons_self
      have hds : d :: ds = List.replicate (d :: ds).length d :=
        List.eq_replicate_of_mem fun x hx => (hsame x hx e List.mem_cons_self).trans hde.symm
      rw [hds, hes, ← List.replicate_add, ← List.replicate_add, Nat.add_comm]

theorem filter_ties_flatten_eq (hcommute : batches.Pairwise Commuting)
    (hperm : batches.Perm batches') (d : Diagnostic) :
    batches.flatten.filter d.ties = batches'.flatten.filter d.ties := by
  induction hperm with
  | nil => rfl
  | cons batch _ ih =>
    rw [List.flatten_cons, List.flatten_cons, List.filter_append, List.filter_append,
      ih hcommute.tail]
  | swap batch batch' rest =>
    have hswap := (List.pairwise_cons.1 hcommute).1 batch List.mem_cons_self d
    simp only [List.flatten_cons, List.filter_append]
    rw [← List.append_assoc, hswap, List.append_assoc]
  | trans hfirst _ ih ih' =>
    rw [ih hcommute, ih' (hfirst.pairwise hcommute Commuting.symm)]

/-- The batches give the same list in every order exactly if any two of them commute. -/
theorem sorted_ofBatches_iff (batches : List (List Diagnostic)) :
    (∀ batches', batches'.Perm batches → (ofBatches batches').sorted = (ofBatches batches).sorted) ↔
      batches.Pairwise Commuting := by
  simp only [sorted_ofBatches]
  constructor
  · intro hall
    rw [List.pairwise_iff_forall_sublist]
    intro batch batch' hsublist d
    -- the two batches first, in either order
    obtain ⟨rest, hrest⟩ := hsublist.exists_perm_append
    have hfirst := hall (batch :: batch' :: rest) hrest.symm
    have hsecond := hall (batch' :: batch :: rest) ((List.Perm.swap _ _ _).trans hrest.symm)
    have hfilter := congrArg (List.filter d.ties) (hfirst.trans hsecond.symm)
    simp only [filter_ties_sort, List.flatten_cons, List.filter_append,
      ← List.append_assoc] at hfilter
    exact List.append_cancel_right hfilter
  · intro hcommute batches' hperm
    rw [sort_eq_iff hperm.flatten]
    intro d
    exact (filter_ties_flatten_eq hcommute hperm.symm d).symm

end Collector

end PoolLint

import Mathlib.Data.List.Forall2
import PoolLint.Flow.Frame

/-!
# Merging frames

Pure facts about `Frame.mergeFrom`: what a merge yields, and what it keeps.

The central notion is `Frame.Absorbs`. A frame absorbs another one if merging that one into it
changes nothing, which is how the analysis decides that there is nothing more to do along an
edge. Absorption survives every later merge, so an edge that is settled once stays settled
while the frame at its end grows.
-/

namespace PoolLint.Flow

variable {V : Type} [JoinSemilattice V]

/-! ## Values above others -/

/-- A value above another one is above everything that is below that one. -/
theorem merge_below_trans {a b c : V} (hab : merge b a = b) (hbc : merge c b = c) :
    merge c a = c := by
  calc merge c a = merge (merge c b) a := by rw [hbc]
    _ = merge c (merge b a) := merge_assoc c b a
    _ = c := by rw [hab, hbc]

/-- A value above two others is above what they merge to. -/
theorem merge_below_merge {a b c : V} (ha : merge c a = c) (hb : merge c b = c) :
    merge c (merge a b) = c := by
  rw [← merge_assoc, ha, hb]

/-- Two values that are above each other are the same. -/
theorem merge_below_antisymm {a b : V} (hab : merge b a = b) (hba : merge a b = a) : a = b := by
  rw [← hab, merge_comm, hba]

namespace Frame

/-! ## Merging lists of values -/

/-- The first list decides how many places there are. -/
@[simp]
theorem length_mergeValues (as bs : List V) : (mergeValues as bs).length = as.length := by
  induction as generalizing bs with
  | nil => cases bs <;> rfl
  | cons a as ih =>
    cases bs with
    | nil => rfl
    | cons b bs =>
      rw [mergeValues, List.length_cons, List.length_cons, ih]

theorem mergeValues_self (as : List V) : mergeValues as as = as := by
  induction as with
  | nil => rfl
  | cons a as ih =>
    rw [mergeValues, merge_self, ih]

/-- A second merge of the same values has no effect. -/
theorem mergeValues_again (as bs : List V) :
    mergeValues (mergeValues as bs) bs = mergeValues as bs := by
  induction as generalizing bs with
  | nil => cases bs <;> rfl
  | cons a as ih =>
    cases bs with
    | nil => rfl
    | cons b bs =>
      rw [mergeValues, mergeValues, ih, merge_assoc, merge_self]

/-- The order in which values are merged in does not matter. -/
theorem mergeValues_right_comm (as bs cs : List V) :
    mergeValues (mergeValues as bs) cs = mergeValues (mergeValues as cs) bs := by
  induction as generalizing bs cs with
  | nil => cases bs <;> cases cs <;> rfl
  | cons a as ih =>
    cases bs with
    | nil => cases cs <;> rfl
    | cons b bs =>
      cases cs with
      | nil => rfl
      | cons c cs =>
        have hhead : merge (merge a b) c = merge (merge a c) b := by
          rw [merge_assoc, merge_comm b c, ← merge_assoc]
        rw [mergeValues, mergeValues, mergeValues, mergeValues, ih, hhead]

/-! ## Merging frames -/

/-- The frame that a successful merge of `g` into `f` yields. -/
def merged (f g : Frame V) : Frame V :=
  { f with locals := mergeValues f.locals g.locals, stack := mergeValues f.stack g.stack }

variable [DecidableEq V]

/-- A merge succeeds between stacks of one height, and reports whether it changed anything. -/
theorem mergeFrom_eq_ok {f g f' : Frame V} {changed : Bool} :
    f.mergeFrom g = .ok (f', changed) ↔
      f.stack.length = g.stack.length ∧ f' = f.merged g ∧ changed = decide (f.merged g ≠ f) := by
  unfold mergeFrom merged
  by_cases hheight : f.stack.length = g.stack.length
  · rw [if_pos hheight]
    constructor
    · intro h
      obtain ⟨rfl, rfl⟩ := Prod.mk.inj (Except.ok.inj h)
      exact ⟨hheight, rfl, rfl⟩
    · rintro ⟨-, rfl, rfl⟩
      rfl
  · rw [if_neg hheight]
    constructor
    · intro h
      cases h
    · intro h
      exact absurd h.1 hheight

/-- Merging `g` into `f` changes nothing. -/
def Absorbs (f g : Frame V) : Prop :=
  f.mergeFrom g = .ok (f, false)

theorem absorbs_iff {f g : Frame V} :
    f.Absorbs g ↔ f.stack.length = g.stack.length ∧
      mergeValues f.locals g.locals = f.locals ∧ mergeValues f.stack g.stack = f.stack := by
  unfold Absorbs
  rw [mergeFrom_eq_ok]
  constructor
  · rintro ⟨hheight, hmerged, -⟩
    have hlocals := congrArg Frame.locals hmerged
    have hstack := congrArg Frame.stack hmerged
    exact ⟨hheight, hlocals.symm, hstack.symm⟩
  · rintro ⟨hheight, hlocals, hstack⟩
    have hmerged : f.merged g = f := by
      unfold merged
      rw [hlocals, hstack]
    exact ⟨hheight, hmerged.symm, by simp [hmerged]⟩

theorem absorbs_self (f : Frame V) : f.Absorbs f :=
  absorbs_iff.2 ⟨rfl, mergeValues_self _, mergeValues_self _⟩

/-- After a merge the merged frame is absorbed. -/
theorem merged_absorbs {f g : Frame V} (h : f.stack.length = g.stack.length) :
    (f.merged g).Absorbs g := by
  refine absorbs_iff.2 ⟨?_, mergeValues_again _ _, mergeValues_again _ _⟩
  rw [merged, length_mergeValues, h]

/-- What is absorbed stays absorbed when the frame grows. -/
theorem Absorbs.merged {f g : Frame V} (h : f.Absorbs g) (k : Frame V) :
    (f.merged k).Absorbs g := by
  obtain ⟨hheight, hlocals, hstack⟩ := absorbs_iff.1 h
  refine absorbs_iff.2 ⟨?_, ?_, ?_⟩
  · rw [Frame.merged, length_mergeValues, hheight]
  · simp only [Frame.merged]
    rw [mergeValues_right_comm, hlocals]
  · simp only [Frame.merged]
    rw [mergeValues_right_comm, hstack]

/-- A merge that reports no change leaves the frame as it is and absorbs. -/
theorem absorbs_of_mergeFrom_false {f g f' : Frame V} (h : f.mergeFrom g = .ok (f', false)) :
    f.Absorbs g := by
  obtain ⟨hheight, rfl, hsame⟩ := mergeFrom_eq_ok.1 h
  have hmerged : f.merged g = f := by simpa using hsame
  unfold Absorbs
  rw [h, hmerged]

/-! ## Growing frames -/

/-- The frame `f'` is what `f` may have become by merges: it has as many slots and absorbs
whatever `f` absorbs. -/
structure Extends (f' f : Frame V) : Prop where
  width : f'.locals.length = f.locals.length
  absorbs : ∀ g, f.Absorbs g → f'.Absorbs g

theorem Extends.refl (f : Frame V) : f.Extends f :=
  ⟨rfl, fun _ h => h⟩

theorem Extends.trans {f g k : Frame V} (h : k.Extends g) (h' : g.Extends f) : k.Extends f :=
  ⟨h.width.trans h'.width, fun j hj => h.absorbs j (h'.absorbs j hj)⟩

theorem merged_extends (f g : Frame V) : (f.merged g).Extends f :=
  ⟨length_mergeValues _ _, fun _ h => h.merged g⟩

/-- Every value of `f` is above the value of `g` at the same place. -/
structure Above (f g : Frame V) : Prop where
  locals : List.Forall₂ (fun a b => merge a b = a) f.locals g.locals
  stack : List.Forall₂ (fun a b => merge a b = a) f.stack g.stack

omit [DecidableEq V] in
theorem forall₂_of_mergeValues {as bs : List V} (hlen : as.length = bs.length)
    (h : mergeValues as bs = as) : List.Forall₂ (fun a b => merge a b = a) as bs := by
  induction as generalizing bs with
  | nil =>
    obtain rfl := List.eq_nil_of_length_eq_zero hlen.symm
    exact .nil
  | cons a as ih =>
    cases bs with
    | nil => simp at hlen
    | cons b bs =>
      rw [mergeValues] at h
      obtain ⟨hhead, htail⟩ := List.cons.inj h
      exact .cons hhead (ih (by simpa using hlen) htail)

/-- A frame is above whatever it has grown from. -/
theorem Extends.above {f' f : Frame V} (h : f'.Extends f) : f'.Above f := by
  obtain ⟨hheight, hlocals, hstack⟩ := absorbs_iff.1 (h.absorbs f f.absorbs_self)
  exact ⟨forall₂_of_mergeValues h.width hlocals, forall₂_of_mergeValues hheight hstack⟩

omit [DecidableEq V] in
theorem forall₂_below_antisymm {as bs : List V}
    (hab : List.Forall₂ (fun a b => merge b a = b) as bs)
    (hba : List.Forall₂ (fun b a => merge a b = a) bs as) : as = bs := by
  induction hab with
  | nil => rfl
  | cons hhead _ ih =>
    cases hba with
    | cons hhead' htail' => rw [merge_below_antisymm hhead hhead', ih htail']

omit [DecidableEq V] in
/-- Two frames with one limit that are above each other are the same. -/
theorem Above.antisymm {f g : Frame V} (h : f.Above g) (h' : g.Above f)
    (hlimit : f.maxStack = g.maxStack) : f = g := by
  obtain ⟨locals, stack, limit⟩ := f
  obtain ⟨locals', stack', limit'⟩ := g
  obtain rfl : locals = locals' := forall₂_below_antisymm h'.locals.flip h.locals.flip
  obtain rfl : stack = stack' := forall₂_below_antisymm h'.stack.flip h.stack.flip
  obtain rfl : limit = limit' := hlimit
  rfl

end Frame
end PoolLint.Flow

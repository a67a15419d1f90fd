import PoolLint.Ownership.Basic
import PoolLint.Proofs.Flow.Effort
import PoolLint.Proofs.Flow.FrameStore
import PoolLint.Proofs.Flow.Origin

/-!
# Merging many frames

Merging the frames of a list into a frame, one after the other, comes to the least upper bound at
every place (`isJoin_of_mergeAll`). A least upper bound is settled by the values that it is one of,
so neither the order of the list nor repetitions in it make a difference (`Frame.IsJoin.unique`).
Each merge answers whether the frame grew, and a frame grows at most as often as its values can
(`count_true_le`). All of this together is `mergeAll_exact`.
-/

namespace PoolLint.Flow

variable {V : Type}

/-! ## Least upper bounds of values -/

section Values

variable [JoinSemilattice V] {a b c : V} {vs ws : List V}

/-- The value is above all values of the list, and below every other one that is. -/
structure IsJoin (a : V) (vs : List V) : Prop where
  above : ∀ v ∈ vs, merge a v = a
  least : ∀ b, (∀ v ∈ vs, merge b v = b) → merge b a = b

theorem isJoin_singleton (a : V) : IsJoin a [a] :=
  ⟨fun _ hv => List.mem_singleton.1 hv ▸ merge_self a, fun _ hb => hb a (List.mem_singleton.2 rfl)⟩

/-- Two of the values may be merged first. -/
theorem IsJoin.of_merge (h : IsJoin c (merge a b :: vs)) : IsJoin c (a :: b :: vs) := by
  have hab : merge c (merge a b) = c := h.above _ List.mem_cons_self
  have ha : merge (merge a b) a = merge a b := by
    rw [merge_comm, ← merge_assoc, merge_self]
  have hb : merge (merge a b) b = merge a b := by
    rw [merge_assoc, merge_self]
  refine ⟨?_, ?_⟩
  · simp only [List.forall_mem_cons]
    exact ⟨merge_below_trans ha hab, merge_below_trans hb hab,
      fun v hv => h.above v (List.mem_cons_of_mem _ hv)⟩
  · intro d hd
    simp only [List.forall_mem_cons] at hd
    refine h.least d ?_
    simp only [List.forall_mem_cons]
    exact ⟨merge_below_merge hd.1 hd.2.1, hd.2.2⟩

/-- A least upper bound depends on which values there are, not on their order or number. -/
theorem IsJoin.unique (ha : IsJoin a vs) (hb : IsJoin b ws) (h : ∀ v, v ∈ vs ↔ v ∈ ws) : a = b :=
  merge_below_antisymm (ha.least b fun v hv => hb.above v ((h v).1 hv))
    (hb.least a fun v hv => ha.above v ((h v).2 hv))

end Values

/-! ## Least upper bounds of frames -/

namespace Frame

variable {f g u u' : Frame V} {gs hs : List (Frame V)}

/-- Two frames have the same number of slots, and stacks of one height. -/
structure SameSize (f g : Frame V) : Prop where
  locals : f.locals.length = g.locals.length
  stack : f.stackHeight = g.stackHeight

theorem SameSize.trans {k : Frame V} (h : f.SameSize g) (h' : g.SameSize k) : f.SameSize k :=
  ⟨h.locals.trans h'.locals, h.stack.trans h'.stack⟩

theorem SameSize.symm (h : f.SameSize g) : g.SameSize f :=
  ⟨h.locals.symm, h.stack.symm⟩

/-- Frames of one size have the same places. -/
theorem SameSize.exists_value? (h : f.SameSize g) {p : Place} {v : V} (hv : f.value? p = some v) :
    ∃ w, g.value? p = some w := by
  cases p with
  | slot k =>
    have hk : k < g.locals.length := h.locals ▸ (List.getElem?_eq_some_iff.1 hv).1
    exact ⟨g.locals[k], List.getElem?_eq_getElem hk⟩
  | entry k =>
    have hstack : f.stack.length = g.stack.length := h.stack
    have hk : k < g.stack.length := hstack ▸ (List.getElem?_eq_some_iff.1 hv).1
    exact ⟨g.stack[k], List.getElem?_eq_getElem hk⟩

/-- Frames of one size and limit with the same values are the same. -/
theorem SameSize.eq (h : f.SameSize g) (hlimit : f.maxStack = g.maxStack)
    (hvalues : ∀ p v w, f.value? p = some v → g.value? p = some w → v = w) : f = g := by
  obtain ⟨locals, stack, limit⟩ := f
  obtain ⟨locals', stack', limit'⟩ := g
  have hlocals : locals = locals' := List.ext_getElem h.locals fun k hk hk' =>
    hvalues (.slot k) _ _ (List.getElem?_eq_getElem hk) (List.getElem?_eq_getElem hk')
  have hstack : stack = stack' := List.ext_getElem h.stack fun k hk hk' =>
    hvalues (.entry k) _ _ (List.getElem?_eq_getElem hk) (List.getElem?_eq_getElem hk')
  obtain rfl : limit = limit' := hlimit
  rw [hlocals, hstack]

variable [JoinSemilattice V]

/-- At every place the frame has the least upper bound of what `f` and the frames of the list have
there. Its size and limit are those of `f`. -/
structure IsJoin (u f : Frame V) (gs : List (Frame V)) : Prop where
  size : u.SameSize f
  limit : u.maxStack = f.maxStack
  values : ∀ p v, u.value? p = some v → Flow.IsJoin v ((f :: gs).filterMap (·.value? p))

theorem IsJoin.unique (hu : u.IsJoin f gs) (hu' : u'.IsJoin f hs) (h : ∀ g, g ∈ hs ↔ g ∈ gs) :
    u' = u := by
  refine (hu'.size.trans hu.size.symm).eq (hu'.limit.trans hu.limit.symm) ?_
  intro p v w hv hw
  refine (hu'.values p v hv).unique (hu.values p w hw) fun x => ?_
  simp only [List.mem_filterMap, List.mem_cons, h]

theorem merged_sameSize (f g : Frame V) : (f.merged g).SameSize f :=
  ⟨length_mergeValues _ _, length_mergeValues _ _⟩

theorem value?_merged_of_sameSize (h : g.SameSize f) {p : Place} {v : V}
    (hv : (f.merged g).value? p = some v) :
    ∃ a b, f.value? p = some a ∧ g.value? p = some b ∧ v = merge a b := by
  cases p with
  | slot k => exact getElem?_mergeValues h.locals.symm hv
  | entry k => exact getElem?_mergeValues h.stack.symm hv

/-! ## Merging a list of frames -/

variable [DecidableEq V]

/-- Merges the frames of a list into `f`, one after the other: what becomes of it, and the
answers whether it was changed. -/
def mergeAll (f : Frame V) : List (Frame V) → Except FrameError (Frame V × List Bool)
  | [] => .ok (f, [])
  | g :: gs => do
    let (f, changed) ← f.mergeFrom g
    let (u, answers) ← f.mergeAll gs
    return (u, changed :: answers)

theorem mergeAll_cons {answers : List Bool} : f.mergeAll (g :: gs) = .ok (u, answers) ↔
    f.stack.length = g.stack.length ∧ ∃ rest, (f.merged g).mergeAll gs = .ok (u, rest) ∧
      answers = decide (f.merged g ≠ f) :: rest := by
  rw [mergeAll, bind_eq_ok]
  constructor
  · rintro ⟨⟨f', changed⟩, hmerge, hrest⟩
    obtain ⟨⟨u', rest⟩, hall, hanswers⟩ := bind_eq_ok.1 hrest
    obtain ⟨hheight, rfl, rfl⟩ := mergeFrom_eq_ok.1 hmerge
    obtain ⟨rfl, rfl⟩ := Prod.mk.inj (Except.ok.inj hanswers)
    exact ⟨hheight, rest, hall, rfl⟩
  · rintro ⟨hheight, rest, hall, rfl⟩
    exact ⟨(f.merged g, _), mergeFrom_eq_ok.2 ⟨hheight, rfl, rfl⟩,
      bind_eq_ok.2 ⟨(u, rest), hall, rfl⟩⟩

/-- Frames of one size can be merged in any number. -/
theorem exists_mergeAll (h : ∀ g ∈ gs, g.SameSize f) :
    ∃ u answers, f.mergeAll gs = .ok (u, answers) := by
  induction gs generalizing f with
  | nil => exact ⟨f, [], rfl⟩
  | cons g gs ih =>
    rw [List.forall_mem_cons] at h
    obtain ⟨u, rest, hall⟩ := ih (f := f.merged g)
      fun k hk => (h.2 k hk).trans (merged_sameSize f g).symm
    exact ⟨u, _, mergeAll_cons.2 ⟨h.1.stack.symm, rest, hall, rfl⟩⟩

theorem isJoin_of_mergeAll {answers : List Bool} (h : ∀ g ∈ gs, g.SameSize f)
    (hall : f.mergeAll gs = .ok (u, answers)) : u.IsJoin f gs := by
  induction gs generalizing f answers with
  | nil =>
    obtain ⟨rfl, -⟩ := Prod.mk.inj (Except.ok.inj hall)
    refine ⟨⟨rfl, rfl⟩, rfl, ?_⟩
    intro p v hv
    have hvalues : [f].filterMap (·.value? p) = [v] := by simp [hv]
    rw [hvalues]
    exact isJoin_singleton v
  | cons g gs ih =>
    rw [List.forall_mem_cons] at h
    obtain ⟨-, rest, hrest, -⟩ := mergeAll_cons.1 hall
    have hjoin := ih (f := f.merged g)
      (fun k hk => (h.2 k hk).trans (merged_sameSize f g).symm) hrest
    refine ⟨hjoin.size.trans (merged_sameSize f g), hjoin.limit, ?_⟩
    intro p v hv
    obtain ⟨w, hw⟩ := hjoin.size.exists_value? hv
    obtain ⟨a, b, ha, hb, rfl⟩ := value?_merged_of_sameSize h.1 hw
    have hvalues := hjoin.values p v hv
    simp only [List.filterMap_cons, hw] at hvalues
    simp only [List.filterMap_cons, ha, hb]
    exact hvalues.of_merge

/-- The next merge takes the frame after the first ones, which it raises, and changes it only if
that was not above the merged one before. -/
theorem mergeAll_step {answers : List Bool} (hall : f.mergeAll gs = .ok (u, answers)) {k : Nat}
    (hk : k < gs.length) : ∃ before after, f.mergeAll (gs.take k) = .ok (before, answers.take k) ∧
      f.mergeAll (gs.take (k + 1)) = .ok (after, answers.take (k + 1)) ∧ after.Above before ∧
      (answers[k]? = some true ↔ ¬ before.Above after) := by
  induction gs generalizing f answers k with
  | nil => cases hk
  | cons g gs ih =>
    obtain ⟨hheight, rest, hrest, rfl⟩ := mergeAll_cons.1 hall
    cases k with
    | zero =>
      have habove : (f.merged g).Above f := (merged_extends f g).above
      have hgrew : f.merged g ≠ f ↔ ¬ f.Above (f.merged g) := by
        rw [not_iff_not]
        constructor
        · intro hsame
          rw [hsame] at habove ⊢
          exact habove
        · intro h
          exact habove.antisymm h rfl
      refine ⟨f, f.merged g, rfl, ?_, habove, ?_⟩
      · exact mergeAll_cons.2 ⟨hheight, [], rfl, rfl⟩
      · rw [List.getElem?_cons_zero, Option.some.injEq, decide_eq_true_eq, hgrew]
    | succ k =>
      obtain ⟨before, after, hbefore, hafter, hstep⟩ :=
        ih hrest (Nat.lt_of_succ_lt_succ hk)
      exact ⟨before, after, mergeAll_cons.2 ⟨hheight, _, hbefore, rfl⟩,
        mergeAll_cons.2 ⟨hheight, _, hafter, rfl⟩, hstep⟩

/-- The same merges in place. -/
theorem mapM_mergeFrom_on {answers : List Bool} (hall : f.mergeAll gs = .ok (u, answers)) :
    (gs.mapM InPlace.mergeFrom).on f = (.ok answers, u) := by
  induction gs generalizing f answers with
  | nil =>
    obtain ⟨rfl, rfl⟩ := Prod.mk.inj (Except.ok.inj hall)
    rfl
  | cons g gs ih =>
    obtain ⟨hheight, rest, hrest, rfl⟩ := mergeAll_cons.1 hall
    have hmerge : (InPlace.mergeFrom g).on f =
        (.ok (decide (f.merged g ≠ f)), f.merged g) := by
      rw [InPlace.mergeFrom_on, mergeFrom_eq_ok.2 ⟨hheight, rfl, rfl⟩]
      rfl
    rw [List.mapM_cons, InPlace.on_bind, hmerge]
    simp only [InPlace.on_bind, ih hrest]
    rfl

end Frame

/-- Every change uses up some of the room that a frame has for growth. -/
theorem Frame.count_true_le [FiniteHeight V] [DecidableEq V] {f u : Frame V} {gs : List (Frame V)}
    {answers : List Bool} (hall : f.mergeAll gs = .ok (u, answers)) :
    answers.count true + u.slack ≤ f.slack := by
  induction gs generalizing f answers with
  | nil =>
    obtain ⟨rfl, rfl⟩ := Prod.mk.inj (Except.ok.inj hall)
    simp
  | cons g gs ih =>
    obtain ⟨hheight, rest, hrest, rfl⟩ := mergeAll_cons.1 hall
    have hcount := ih hrest
    by_cases hsame : f.merged g = f
    · rw [hsame] at hcount
      simpa [hsame] using hcount
    · have hslack := slack_merged_lt hheight hsame
      rw [List.count_cons]
      simp only [hsame, ne_eq, not_false_eq_true, decide_true, beq_self_eq_true, if_true]
      omega

/-- Merging frames of one size into a frame, in any order and with any repetitions, leads to one
frame, the least upper bound at every place. A merge answers that it changed the frame exactly if
the frame before is not above the one after, which is always above the one before. Of the answers
about frames of ownership states, at most two for each slot and stack entry are yes. -/
theorem mergeAll_exact :
    (∀ {V : Type} [JoinSemilattice V] [DecidableEq V] (f : Frame V) (gs : List (Frame V)),
      (∀ g ∈ gs, g.SameSize f) → ∃ u, u.IsJoin f gs ∧ ∀ hs, (∀ g, g ∈ hs ↔ g ∈ gs) →
        ∃ answers, f.mergeAll hs = .ok (u, answers) ∧
          (hs.mapM InPlace.mergeFrom).on f = (.ok answers, u) ∧
          ∀ k < hs.length, ∃ before after, f.mergeAll (hs.take k) = .ok (before, answers.take k) ∧
            f.mergeAll (hs.take (k + 1)) = .ok (after, answers.take (k + 1)) ∧
            after.Above before ∧ (answers[k]? = some true ↔ ¬ before.Above after)) ∧
    ∀ (f : Frame Ownership) (gs : List (Frame Ownership)), (∀ g ∈ gs, g.SameSize f) →
      ∃ u answers, f.mergeAll gs = .ok (u, answers) ∧
        answers.count true ≤ 2 * (f.locals.length + f.stackHeight) := by
  refine ⟨?_, ?_⟩
  · intro V _ _ f gs hsize
    obtain ⟨u, _, hall⟩ := Frame.exists_mergeAll hsize
    have hjoin := Frame.isJoin_of_mergeAll hsize hall
    refine ⟨u, hjoin, ?_⟩
    intro hs hmem
    have hsize' : ∀ g ∈ hs, g.SameSize f := fun g hg => hsize g ((hmem g).1 hg)
    obtain ⟨u', answers, hall'⟩ := Frame.exists_mergeAll hsize'
    obtain rfl : u' = u := hjoin.unique (Frame.isJoin_of_mergeAll hsize' hall') hmem
    exact ⟨answers, hall', Frame.mapM_mergeFrom_on hall', fun k hk => Frame.mergeAll_step hall' hk⟩
  · intro f gs hsize
    obtain ⟨u, answers, hall⟩ := Frame.exists_mergeAll hsize
    have hcount := Frame.count_true_le hall
    have hslack : f.slack ≤ 2 * (f.locals.length + f.stackHeight) := f.slack_le
    exact ⟨u, answers, hall, by omega⟩

/-- Frames that meet at one place, one of them twice. -/
def meetingFrames : List (Frame Ownership) :=
  [⟨[.tracked, .unknown], [.unknown], none⟩, ⟨[.unknown, .released], [.tracked], some 3⟩,
    ⟨[.tracked, .unknown], [.unknown], none⟩]

theorem mergeAll_exact_of_meetingFrames :
    let f : Frame Ownership := ⟨[.unknown, .unknown], [.unknown], some 1⟩
    let u : Frame Ownership := ⟨[.tracked, .released], [.tracked], some 1⟩
    (∀ g ∈ meetingFrames, g.SameSize f) ∧ u.IsJoin f meetingFrames ∧
      (∃ answers, f.mergeAll meetingFrames.reverse = .ok (u, answers)) ∧
      ∃ answers, f.mergeAll meetingFrames = .ok (u, answers) ∧ answers.count true ≤ 6 := by
  intro f u
  have hsize : ∀ g ∈ meetingFrames, g.SameSize f := by
    simp only [meetingFrames, List.forall_mem_cons]
    exact ⟨⟨rfl, rfl⟩, ⟨rfl, rfl⟩, ⟨rfl, rfl⟩, nofun⟩
  obtain ⟨u', hjoin, hmerges⟩ := mergeAll_exact.1 f meetingFrames hsize
  obtain ⟨answers, hall, -, -⟩ := hmerges meetingFrames fun _ => Iff.rfl
  have hvalue : f.mergeAll meetingFrames = .ok (u, [true, true, false]) := by rfl
  obtain rfl : u' = u := (Prod.mk.inj (Except.ok.inj (hall.symm.trans hvalue))).1
  obtain ⟨answers', hall', -, -⟩ := hmerges meetingFrames.reverse fun _ => List.mem_reverse
  obtain ⟨u'', answers'', hall'', hcount⟩ := mergeAll_exact.2 f meetingFrames hsize
  obtain rfl : u'' = u := (Prod.mk.inj (Except.ok.inj (hall''.symm.trans hall))).1
  exact ⟨hsize, hjoin, ⟨answers', hall'⟩, answers'', hall'', hcount⟩

end PoolLint.Flow

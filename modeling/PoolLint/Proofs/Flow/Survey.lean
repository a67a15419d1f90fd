import PoolLint.Proofs.Flow.Coverage
import PoolLint.Proofs.Flow.Queue

/-!
# The survey of a method

Values decide which places are visited again, and so the order in which the worklist is worked
off. They do not decide how an analysis ends. To see this, every analysis is compared with one
that has no values at all (`bare`), which visits each place once. An analysis does the same
first visits in the same order, because the queue is first in, first out; between them it visits
places again, which cannot fail, since their edges were followed before with frames of the same
shape (`Worklist.Follows.ends`, `Worklist.Follows.fails`).
-/

namespace PoolLint.Flow

open PoolLint.Bytecode

variable {V S : Type} {m : Method}

/-! ## An analysis without values -/

/-- With a single value there is nothing to merge. -/
instance : FiniteHeight Unit where
  merge _ _ := ()
  merge_comm _ _ := rfl
  merge_assoc _ _ _ := rfl
  merge_self _ := rfl
  rank _ := 0
  height := 0
  rank_le_height _ := Nat.le_refl 0
  rank_lt_of_merge_ne _ _ h := absurd rfl h

/-- Moves the only value there is, and records nothing. -/
def bare : Interpreter Unit Unit where
  newValue _ := ()
  fresh _ _ _ := ((), ())
  storeHeap _ _ _ _ := ()
  call _ _ _ _ f := ((), (), f)
  ret _ _ _ := ()

theorem bare_keepsShape : bare.KeepsShape :=
  fun _ _ _ _ _ _ h => h

theorem bare_accumulates : bare.Accumulates fun _ _ => True :=
  ⟨fun _ => trivial, fun _ _ => trivial, fun _ => trivial⟩

namespace Frame

theorem mergeValues_unit (as bs : List Unit) : mergeValues as bs = as :=
  List.ext_getElem (length_mergeValues as bs) fun _ _ _ => rfl

/-- Frames without values absorb every frame of their height. -/
theorem absorbs_unit {f g : Frame Unit} (h : f.stack.length = g.stack.length) : f.Absorbs g :=
  absorbs_iff.2 ⟨h, mergeValues_unit _ _, mergeValues_unit _ _⟩

end Frame

/-! ## Following the survey -/

theorem Alike.foldlM {ε α σ τ : Type} {R : σ → τ → Prop} {f : σ → α → Except ε σ}
    {g : τ → α → Except ε τ} (h : ∀ s t a, R s t → Alike R (f s a) (g t a)) (as : List α)
    {s : σ} {t : τ} (hst : R s t) : Alike R (as.foldlM f s) (as.foldlM g t) := by
  induction as generalizing s t with
  | nil => exact hst
  | cons a as ih =>
    rw [List.foldlM_cons, List.foldlM_cons]
    exact (h s t a hst).bind fun _ _ hst' => ih hst'

namespace Worklist

variable {n : Nat}

/-- The survey `u` has reached the same places as `w`, with frames of the same shape. What it
still has to visit are the queued places of `w` that were never visited, in the same order. -/
structure Follows (m : Method) (w : Worklist V S n) (u : Worklist Unit Unit n) : Prop where
  tidy : w.Tidy
  frames : ∀ k, Option.Rel (Frame.SameShape m) (w.frames.get k) (u.frames.get k)
  queue : w.queue.filter u.queue.contains = u.queue

namespace Follows

variable {w : Worklist V S n} {u : Worklist Unit Unit n} {target : Fin n} {f : Frame V}
  {g : Frame Unit}

theorem mem_queue (h : Follows m w u) {k : Fin n} (hk : k ∈ u.queue) : k ∈ w.queue := by
  rw [← h.queue] at hk
  exact List.mem_of_mem_filter hk

theorem frame_none (h : Follows m w u) {k : Fin n} (hw : w.frames.get k = none) :
    u.frames.get k = none := by
  have hrel := h.frames k
  rw [hw] at hrel
  generalize u.frames.get k = slot at hrel
  cases hrel
  rfl

theorem frame_some (h : Follows m w u) {k : Fin n} {old : Frame V}
    (hw : w.frames.get k = some old) :
    ∃ old', u.frames.get k = some old' ∧ old.SameShape m old' := by
  have hrel := h.frames k
  rw [hw] at hrel
  generalize u.frames.get k = slot at hrel
  cases hrel with
  | some hold => exact ⟨_, rfl, hold⟩

theorem frames_store (h : Follows m w u) (hfg : f.SameShape m g) (k : Fin n) :
    Option.Rel (Frame.SameShape m) ((w.store target f).frames.get k)
      ((u.store target g).frames.get k) := by
  by_cases hk : k = target
  · rw [hk, frames_store_self, frames_store_self]
    exact .some hfg
  · rw [frames_store_ne w f hk, frames_store_ne u g hk]
    exact h.frames k

/-- A place reached for the first time is queued last on both sides. -/
theorem store_new (h : Follows m w u) (hnone : w.frames.get target = none)
    (hfg : f.SameShape m g) : Follows m (w.store target f) (u.store target g) := by
  have hw : target ∉ w.queue := h.tidy.not_mem hnone
  have hu : target ∉ u.queue := fun hmem => hw (h.mem_queue hmem)
  refine ⟨h.tidy.store, h.frames_store hfg, ?_⟩
  rw [queue_store_of_not_mem hw, queue_store_of_not_mem hu, List.filter_append]
  have hold : w.queue.filter (u.queue ++ [target]).contains = w.queue.filter u.queue.contains := by
    apply List.filter_congr
    intro k hk
    have hne : k ≠ target := fun heq => hw (heq ▸ hk)
    simp [hne]
  rw [hold, h.queue]
  simp

/-- A frame that grows is no news for the survey. -/
theorem store_old (h : Follows m w u) (hold : u.frames.get target = some g)
    (hfg : f.SameShape m g) : Follows m (w.store target f) u := by
  refine ⟨h.tidy.store, ?_, ?_⟩
  · intro k
    by_cases hk : k = target
    · rw [hk, frames_store_self, hold]
      exact .some hfg
    · rw [frames_store_ne w f hk]
      exact h.frames k
  · by_cases hw : target ∈ w.queue
    · rw [queue_store_of_mem hw]
      exact h.queue
    · have hu : target ∉ u.queue := fun hmem => hw (h.mem_queue hmem)
      rw [queue_store_of_not_mem hw, List.filter_append, h.queue]
      simp [hu]

variable [JoinSemilattice V] [DecidableEq V]

/-- Propagating frames of one shape fails on both sides or on neither. -/
theorem propagate_alike (h : Follows m w u) (hfg : f.SameShape m g) :
    Alike (Follows m) (w.propagate target f) (u.propagate target g) := by
  cases hw : w.frames.get target with
  | none =>
    rw [propagate_of_none hw, propagate_of_none (h.frame_none hw)]
    exact h.store_new hw hfg
  | some old =>
    obtain ⟨old', hu, hold⟩ := h.frame_some hw
    have hheights : old.stack.length = old'.stack.length := hold.stack.length_eq
    have hheights' : f.stack.length = g.stack.length := hfg.stack.length_eq
    by_cases hheight : old'.stack.length = g.stack.length
    · rw [propagate_of_received ⟨target.isLt, old', hu, Frame.absorbs_unit hheight⟩]
      have hmerged : (old.merged f).SameShape m old' := hold.merged f
      rcases propagate_of_height hw (f := f) (by omega) with hsame | hgrown
      · rw [hsame]
        exact h
      · rw [hgrown]
        exact h.store_old hu hmerged
    · have hheight' : old.stack.length ≠ f.stack.length := by omega
      rw [propagate_of_mismatch hw hheight', propagate_of_mismatch hu hheight, hheights,
        hheights']
      exact rfl

variable {I : Interpreter V S}

theorem enterHandler_alike (h : Follows m w u) (hfg : f.SameShape m g) (handler : Handler) :
    Alike (Follows m) (enterHandler I f w handler) (enterHandler bare g u handler) := by
  by_cases hrange : handler.target < n
  · rw [enterHandler_of_lt hrange, enterHandler_of_lt hrange]
    have hentry : Alike (Frame.SameShape m) (I.handlerEntry w.record f)
        (bare.handlerEntry u.record g) := Interpreter.handlerEntry_alike trivial hfg
    exact (hentry.located handler.target).bind fun _ _ hsame => h.propagate_alike hsame
  · unfold Worklist.enterHandler
    rw [dif_neg hrange, dif_neg hrange]
    exact rfl

theorem enterSuccessor_alike (h : Follows m w u) (hfg : f.SameShape m g) (i j : Nat) :
    Alike (Follows m) (enterSuccessor i f w j) (enterSuccessor i g u j) := by
  unfold Worklist.enterSuccessor
  by_cases hrange : j < n
  · rw [dif_pos hrange, dif_pos hrange]
    exact h.propagate_alike hfg
  · rw [dif_neg hrange, dif_neg hrange]
    exact rfl

omit [JoinSemilattice V] [DecidableEq V] in
theorem withRecord (h : Follows m w u) (r : S) (r' : Unit) :
    Follows m { w with record := r } { u with record := r' } :=
  ⟨⟨h.tidy.nodup, h.tidy.present⟩, h.frames, h.queue⟩

end Follows

variable [JoinSemilattice V] [DecidableEq V] {I : Interpreter V S}

/-- Visiting a place on both sides fails on both or on neither. -/
theorem Follows.visit_alike (hI : I.KeepsShape) {w : Worklist V S m.code.length}
    {u : Worklist Unit Unit m.code.length} (h : Follows m w u) (i : Fin m.code.length) :
    Alike (Follows m) (w.visit I m i) (u.visit bare m i) := by
  cases hw : w.frames.get i with
  | none =>
    rw [visit_of_none hw, visit_of_none (h.frame_none hw)]
    exact h
  | some f =>
    obtain ⟨g, hu, hfg⟩ := h.frame_some hw
    have hframe : w.frames[i] = some f := hw
    have hframe' : u.frames[i] = some g := hu
    unfold Worklist.visit
    rw [hframe, hframe']
    -- handlers, then the instruction itself, then its successors
    refine (Alike.foldlM (fun _ _ handler hst => hst.enterHandler_alike hfg handler) _ h).bind ?_
    intro w₁ u₁ h₁
    refine (Interpreter.execute_sameShape hI bare_keepsShape m.code[i] hfg).bind ?_
    intro outcome outcome' hafter
    exact Alike.foldlM (fun _ _ j hst => hst.enterSuccessor_alike hafter i j) _
      (h₁.withRecord outcome.1 outcome'.1)

/-- The survey gains nothing from visiting a place again. -/
theorem visit_of_settled {u : Worklist Unit Unit m.code.length} {i : Fin m.code.length}
    {g : Frame Unit} (hg : u.frames.get i = some g)
    (h : Settled bare m (fun _ _ => True) u i g) : u.visit bare m i = .ok u := by
  obtain ⟨s, s', after, hexecute, -, hsuccessors, hhandlers⟩ := h
  have hframe : u.frames[i] = some g := hg
  have hentered : (m.handlersCovering i).foldlM (enterHandler bare g) u = .ok u := by
    apply foldlM_same
    intro handler hmem
    obtain ⟨t, entry, hentry, hreceived⟩ := hhandlers handler hmem
    have hentry' : bare.handlerEntry u.record g = .ok entry := hentry
    obtain ⟨hrange, -⟩ := id hreceived
    rw [enterHandler_of_lt hrange, hentry']
    have hplace : u.Received (⟨handler.target, hrange⟩ : Fin m.code.length) entry := hreceived
    exact propagate_of_received hplace
  have hfollowed : (m.successors i).foldlM (enterSuccessor i after) u = .ok u := by
    apply foldlM_same
    intro j hj
    have hreceived := hsuccessors j hj
    obtain ⟨hrange, -⟩ := id hreceived
    unfold enterSuccessor
    rw [dif_pos hrange]
    have hplace : u.Received (⟨j, hrange⟩ : Fin m.code.length) after := hreceived
    exact propagate_of_received hplace
  have hexecute' : bare.execute u.record i m.code[i] g = .ok (u.record, after) := hexecute
  unfold visit
  rw [hframe]
  simp only [hentered, hexecute', bind, Except.bind]
  exact hfollowed

/-! ## Ends -/

/-- Between two visits the survey knows every place with a frame, and has visited those that are
not queued. -/
abbrev Surveyed (m : Method) (u : Worklist Unit Unit m.code.length) : Prop :=
  Stable bare m (fun _ _ => True) u

/-- If the first queued place was never visited, the survey visits it as well. Otherwise it does
nothing. -/
theorem Follows.step (hI : I.KeepsShape) {w : Worklist V S m.code.length}
    {u : Worklist Unit Unit m.code.length} (h : Follows m w u) (hu : Surveyed m u)
    {i : Fin m.code.length} {rest : List (Fin m.code.length)} (hq : w.queue = i :: rest) :
    (∃ rest', u.queue = i :: rest' ∧
      Alike (Follows m) (visit I m (w.dequeued rest) i) (visit bare m (u.dequeued rest') i)) ∨
    (i ∉ u.queue ∧ ∃ w', visit I m (w.dequeued rest) i = .ok w' ∧ Follows m w' u) := by
  obtain ⟨htidy, hi⟩ := h.tidy.dequeued hq
  have hqueue := h.queue
  rw [hq] at hqueue
  by_cases hmem : i ∈ u.queue
  · left
    rw [List.filter_cons_of_pos (by simpa using hmem)] at hqueue
    have hrest : rest.filter (rest.filter u.queue.contains).contains =
        rest.filter u.queue.contains := by
      apply List.filter_congr
      intro k hk
      simp [hk]
    have hfollows : Follows m (w.dequeued rest) (u.dequeued (rest.filter u.queue.contains)) :=
      ⟨htidy, h.frames, hrest⟩
    exact ⟨_, hqueue.symm, hfollows.visit_alike hI i⟩
  · right
    rw [List.filter_cons_of_neg (by simpa using hmem)] at hqueue
    have hfollows : Follows m (w.dequeued rest) u := ⟨htidy, h.frames, hqueue⟩
    have halike := hfollows.visit_alike hI i
    -- a queued place has a frame, and what the survey does not have queued it has visited
    have hpresent : w.frames.get i ≠ none := h.tidy.present i (hq ▸ List.mem_cons_self)
    obtain ⟨f, hf⟩ := Option.ne_none_iff_exists'.1 hpresent
    obtain ⟨g, hg, -⟩ := h.frame_some hf
    have hsettled := (hu i g hg).resolve_left hmem
    rw [visit_of_settled hg hsettled] at halike
    obtain ⟨w', hw', hfollows'⟩ := halike.symm.exists_ok rfl
    exact ⟨hmem, w', hw', hfollows'⟩

/-- However an analysis ends, the survey ends in the same way. -/
theorem Follows.ends (hI : I.KeepsShape) {w : Worklist V S m.code.length}
    {u : Worklist Unit Unit m.code.length} {outcome : Except FlowError (Worklist V S _)}
    (hends : Ends I m w outcome) (h : Follows m w u) (hu : Surveyed m u) :
    ∃ outcome', Ends bare m u outcome' ∧ Alike (Follows m) outcome outcome' := by
  induction hends generalizing u with
  | done hq =>
    have hempty : u.queue = [] := by
      have hqueue := h.queue
      rw [hq] at hqueue
      exact hqueue.symm
    exact ⟨.ok u, .done hempty, h⟩
  | failed hq hvisit =>
    rcases h.step hI hu hq with ⟨rest', hq', halike⟩ | ⟨-, w', hvisit', -⟩
    · rw [hvisit] at halike
      cases hvisit' : visit bare m (u.dequeued rest') _ with
      | error e' =>
        rw [hvisit'] at halike
        exact ⟨.error e', .failed hq' hvisit', halike⟩
      | ok u' =>
        rw [hvisit'] at halike
        exact halike.elim
    · cases hvisit.symm.trans hvisit'
  | visited hq hvisit _ ih =>
    rcases h.step hI hu hq with ⟨rest', hq', halike⟩ | ⟨-, w', hvisit', hfollows⟩
    · obtain ⟨u', hvisit', hfollows⟩ := halike.exists_ok hvisit
      have hu' := visit_stable bare_accumulates hu hq' hvisit'
      obtain ⟨outcome', hends', halike'⟩ := ih hfollows hu'
      exact ⟨outcome', .visited hq' hvisit' hends', halike'⟩
    · obtain rfl := Except.ok.inj (hvisit.symm.trans hvisit')
      exact ih hfollows hu

/-- A visit queues places behind those that are queued already. -/
theorem visit_queue {w w' : Worklist V S m.code.length} {i : Fin m.code.length}
    (h : w.visit I m i = .ok w') : w.queue <+: w'.queue := by
  refine visit_induction (P := fun v => w.queue <+: v.queue) ?_ (fun _ _ hv => hv)
    (List.prefix_refl _) h
  intro v v' target f hv hok
  have hstore : ∀ g, v.queue <+: (v.store target g).queue := by
    intro g
    by_cases hmem : target ∈ v.queue
    · exact ⟨[], by rw [List.append_nil, queue_store_of_mem hmem]⟩
    · exact ⟨[target], (queue_store_of_not_mem hmem).symm⟩
  rcases propagate_eq_ok hok with ⟨-, rfl⟩ | ⟨old, -, -, ⟨rfl, -⟩ | ⟨rfl, -⟩⟩
  · exact hv.trans (hstore _)
  · exact hv
  · exact hv.trans (hstore _)

/-- The first place that the survey has queued gets its turn: places before it in the queue are
only visited again, and no place is queued before it. -/
theorem Follows.catch_up (hI : I.KeepsShape) {w : Worklist V S m.code.length}
    {u : Worklist Unit Unit m.code.length} (h : Follows m w u) (hu : Surveyed m u)
    {i : Fin m.code.length} {rest' : List (Fin m.code.length)} (hq' : u.queue = i :: rest') :
    ∃ w' rest, (∀ outcome, Ends I m w' outcome → Ends I m w outcome) ∧ Follows m w' u ∧
      w'.queue = i :: rest := by
  -- by induction on the number of places before it
  induction hrank : w.queue.idxOf i using Nat.strongRecOn generalizing w with
  | ind rank ih =>
    have hmem : i ∈ w.queue := h.mem_queue (hq' ▸ List.mem_cons_self)
    cases hq : w.queue with
    | nil => simp [hq] at hmem
    | cons j rest =>
      by_cases hij : j = i
      · exact ⟨w, rest, fun _ h => h, h, hij ▸ hq⟩
      rcases h.step hI hu hq with ⟨rest'', hq'', -⟩ | ⟨-, w', hvisit, hfollows⟩
      · exact absurd (List.cons.inj (hq''.symm.trans hq')).1 hij
      have hrest : i ∈ rest := by
        rw [hq] at hmem
        exact (List.mem_cons.1 hmem).resolve_left (Ne.symm hij)
      obtain ⟨extra, hextra⟩ := visit_queue hvisit
      have hbefore : w'.queue.idxOf i = rest.idxOf i := by
        rw [← hextra]
        exact List.idxOf_append_of_mem hrest
      rw [hq, List.idxOf_cons_ne rest hij] at hrank
      obtain ⟨w'', rest₀, hends, hfollows', hq₀⟩ := ih _ (by omega) hfollows rfl
      exact ⟨w'', rest₀, fun _ h => .visited hq hvisit (hends _ h), hfollows', hq₀⟩

/-- If the survey fails, an analysis that it goes with fails with the same error. -/
theorem Follows.fails (hI : I.KeepsShape) {w : Worklist V S m.code.length}
    {u : Worklist Unit Unit m.code.length} {e : FlowError} (h : Follows m w u)
    (hu : Surveyed m u) (hends : Ends bare m u (.error e)) : Ends I m w (.error e) := by
  generalize houtcome : Except.error e = outcome at hends
  induction hends generalizing w with
  | done => cases houtcome
  | failed hq' hvisit' =>
    obtain rfl := Except.error.inj houtcome
    obtain ⟨w', rest, hends, hfollows, hq⟩ := h.catch_up hI hu hq'
    apply hends
    rcases hfollows.step hI hu hq with ⟨rest'', hq'', halike⟩ | ⟨hmem, -⟩
    · obtain ⟨-, rfl⟩ := List.cons.inj (hq'.symm.trans hq'')
      rw [hvisit'] at halike
      cases hvisit : visit I m (w'.dequeued rest) _ with
      | error e' =>
        rw [hvisit] at halike
        obtain rfl : e' = e := halike
        exact .failed hq hvisit
      | ok v =>
        rw [hvisit] at halike
        exact halike.elim
    · exact absurd (hq' ▸ List.mem_cons_self) hmem
  | visited hq' hvisit' _ ih =>
    obtain ⟨w', rest, hends, hfollows, hq⟩ := h.catch_up hI hu hq'
    apply hends
    rcases hfollows.step hI hu hq with ⟨rest'', hq'', halike⟩ | ⟨hmem, -⟩
    · obtain ⟨-, rfl⟩ := List.cons.inj (hq'.symm.trans hq'')
      obtain ⟨v, hvisit, hfollows'⟩ := halike.symm.exists_ok hvisit'
      have hu' := visit_stable bare_accumulates hu hq' hvisit'
      exact .visited hq hvisit (ih hfollows' hu' houtcome)
    · exact absurd (hq' ▸ List.mem_cons_self) hmem

omit [JoinSemilattice V] [DecidableEq V] in
/-- At the start neither side has visited anything. -/
theorem follows_initial (s : S) (hne : 0 < m.code.length) :
    Follows m (initial I s m hne) (initial bare () m hne) := by
  refine ⟨initial_tidy s hne, ?_, ?_⟩
  · intro k
    by_cases hk : (k : Nat) = 0
    · obtain rfl : k = ⟨0, hne⟩ := Fin.ext hk
      have hw : (initial I s m hne).frames.get ⟨0, hne⟩ = _ := frames_initial_zero s hne
      have hu : (initial bare () m hne).frames.get ⟨0, hne⟩ = _ := frames_initial_zero () hne
      rw [hw, hu]
      exact .some (.new trivial)
    · rw [frames_initial_ne s hne hk, frames_initial_ne () hne hk]
      exact .none
  · simp [initial]

end Worklist

/-! ## Whole analyses -/

open Worklist

/-- The stack height before an instruction, `none` for unreached ones. -/
def Analysis.height? (a : Analysis V S) (i : Nat) : Option Nat :=
  (a.frame? i).map Frame.stackHeight

theorem Analysis.isReachable_eq_isSome (a : Analysis V S) (i : Nat) :
    a.isReachable i = (a.height? i).isSome := by
  rw [isReachable, height?, Option.isSome_map]

variable [JoinSemilattice V] [DecidableEq V] {I : Interpreter V S} {s : S}

/-- An analysis fails exactly if the survey does, and with the same error. -/
theorem analyzes_error_iff_survey (hI : I.KeepsShape) {e : FlowError} :
    Analyzes I s m (.error e) ↔ Analyzes bare () m (.error e) := by
  constructor
  · intro h
    cases h with
    | empty hne => exact .empty hne
    | faulty hne hfault => exact .faulty hne hfault
    | failed hne hfault hends =>
      obtain ⟨outcome', hends', halike⟩ :=
        Follows.ends hI hends (follows_initial s hne) (initial_stable () hne)
      cases outcome' with
      | error e' =>
        obtain rfl : e = e' := halike
        exact .failed hne hfault hends'
      | ok u => exact halike.elim
  · intro h
    cases h with
    | empty hne => exact .empty hne
    | faulty hne hfault => exact .faulty hne hfault
    | failed hne hfault hends =>
      exact .failed hne hfault
        ((follows_initial s hne).fails hI (initial_stable () hne) hends)

/-- The survey finds the stack heights of every analysis. -/
theorem analyzes_ok_survey (hI : I.KeepsShape) {a : Analysis V S}
    (h : Analyzes I s m (.ok a)) :
    ∃ b, Analyzes bare () m (.ok b) ∧ ∀ i, a.height? i = b.height? i := by
  obtain ⟨hne, w, hfault, hends, rfl⟩ := analyzes_ok_iff.1 h
  obtain ⟨outcome', hends', halike⟩ :=
    Follows.ends hI hends (follows_initial s hne) (initial_stable () hne)
  obtain ⟨u, rfl, hfollows⟩ := halike.exists_ok rfl
  refine ⟨_, .done hne hfault hends', ?_⟩
  intro i
  unfold Analysis.height?
  by_cases hi : i < m.code.length
  · rw [frame?_get w ⟨i, hi⟩, frame?_get u ⟨i, hi⟩]
    cases hw : w.frames.get ⟨i, hi⟩ with
    | none => rw [hfollows.frame_none hw]; rfl
    | some f =>
      obtain ⟨g, hu, hfg⟩ := hfollows.frame_some hw
      rw [hu]
      exact congrArg some hfg.stack.length_eq
  · rw [frame?_of_le w (by omega), frame?_of_le u (by omega)]
    rfl

/-- The analyses of a method by two interpreters that leave frames their size fail alike, and
if both end with a table, control has reached the same instructions with the same stack
heights. -/
theorem analyzes_agree {W T : Type} [JoinSemilattice W] [DecidableEq W] {J : Interpreter W T}
    {t : T} (hI : I.KeepsShape) (hJ : J.KeepsShape) :
    (∀ e, Analyzes I s m (.error e) ↔ Analyzes J t m (.error e)) ∧
      ∀ a b, Analyzes I s m (.ok a) → Analyzes J t m (.ok b) →
        ∀ i, a.height? i = b.height? i := by
  refine ⟨?_, ?_⟩
  · intro e
    rw [analyzes_error_iff_survey hI, analyzes_error_iff_survey hJ]
  · intro a b ha hb i
    obtain ⟨u, hu, hau⟩ := analyzes_ok_survey hI ha
    obtain ⟨u', hu', hbu⟩ := analyzes_ok_survey hJ hb
    have hsame : (Except.ok u : Except FlowError (Analysis Unit Unit)) = .ok u' :=
      (analyzes_iff.1 hu).symm.trans (analyzes_iff.1 hu')
    obtain rfl := Except.ok.inj hsame
    exact (hau i).trans (hbu i).symm

end PoolLint.Flow

import PoolLint.Flow.Analysis
import PoolLint.Proofs.Flow.Lockstep
import PoolLint.Proofs.Flow.Merging

/-!
# What a run of the worklist does

A visit only ever adds: frames grow, the queue gets longer, and every place whose frame
changes is queued (`Worklist.Later`). `Worklist.visit_spec` says what a successful visit
achieves: the instruction was executed on the frame before it, and every place that control can
pass to has received the outcome.

`Worklist.Ends` relates a state to the end that visiting leads to. It makes sense for all values
that can be merged; where they have finite height there always is an end, and `Worklist.run`
computes it (`Worklist.run_eq_iff`). `Worklist.ends_induction` carries a property to the end. The
end for a given method can also be computed by counting visits (`Worklist.runFor`), which
evaluates where the well-founded recursion of `Worklist.run` does not.
-/

namespace PoolLint.Flow
namespace Worklist

open PoolLint.Bytecode

variable {V S : Type} {n : Nat}

/-! ## Storing and propagating -/

theorem frames_store_self (w : Worklist V S n) (target : Fin n) (f : Frame V) :
    (w.store target f).frames.get target = some f := by
  unfold store
  exact Vector.getElem_set_self _

theorem frames_store_ne (w : Worklist V S n) {target k : Fin n} (f : Frame V) (h : k ≠ target) :
    (w.store target f).frames.get k = w.frames.get k := by
  unfold store
  exact Vector.getElem_set_ne target.isLt k.isLt fun heq => h (Fin.ext heq).symm

theorem mem_queue_store (w : Worklist V S n) (target : Fin n) (f : Frame V) :
    target ∈ (w.store target f).queue := by
  unfold store
  by_cases h : target ∈ w.queue
  · rw [if_pos h]
    exact h
  · rw [if_neg h]
    exact List.mem_append_right _ (List.mem_singleton.2 rfl)

theorem queue_subset_store (w : Worklist V S n) (target : Fin n) (f : Frame V) :
    ∀ k ∈ w.queue, k ∈ (w.store target f).queue := by
  intro k hk
  unfold store
  by_cases h : target ∈ w.queue
  · rw [if_pos h]
    exact hk
  · rw [if_neg h]
    exact List.mem_append_left _ hk

/-! ## Following a list of edges -/

section Folds

variable {α : Type} {P : Worklist V S n → Prop}
  {g : Worklist V S n → α → Except FlowError (Worklist V S n)}

/-- What every step keeps, all of them together keep. -/
theorem foldlM_induction (as : List α)
    (hg : ∀ w w' a, a ∈ as → P w → g w a = .ok w' → P w') {w w' : Worklist V S n}
    (hw : P w) (h : as.foldlM g w = .ok w') : P w' := by
  induction as generalizing w with
  | nil =>
    obtain rfl : w = w' := Except.ok.inj h
    exact hw
  | cons a as ih =>
    rw [List.foldlM_cons] at h
    obtain ⟨next, hstep, hrest⟩ := bind_eq_ok.1 h
    exact ih (fun w w' b hb => hg w w' b (List.mem_cons_of_mem a hb))
      (hg w next a List.mem_cons_self hw hstep) hrest

/-- Steps that cannot fail from where the others lead cannot fail together. -/
theorem foldlM_ok (as : List α) (hg : ∀ w a, a ∈ as → P w → ∃ w', g w a = .ok w' ∧ P w')
    {w : Worklist V S n} (hw : P w) : ∃ w', as.foldlM g w = .ok w' ∧ P w' := by
  induction as generalizing w with
  | nil => exact ⟨w, rfl, hw⟩
  | cons a as ih =>
    obtain ⟨next, hstep, hnext⟩ := hg w a List.mem_cons_self hw
    obtain ⟨w', hrest, hw'⟩ := ih (fun w b hb => hg w b (List.mem_cons_of_mem a hb)) hnext
    refine ⟨w', ?_, hw'⟩
    rw [List.foldlM_cons]
    exact bind_eq_ok.2 ⟨next, hstep, hrest⟩

/-- Steps that change nothing change nothing together. -/
theorem foldlM_same (as : List α) {w : Worklist V S n} (hg : ∀ a ∈ as, g w a = .ok w) :
    as.foldlM g w = .ok w := by
  have hstep : ∀ v a, a ∈ as → v = w → ∃ w', g v a = .ok w' ∧ w' = w := by
    intro v a ha hv
    rw [hv]
    exact ⟨w, hg a ha, rfl⟩
  obtain ⟨w', hok, rfl⟩ := foldlM_ok as hstep rfl
  exact hok

end Folds

section Later

variable [JoinSemilattice V] [DecidableEq V]

/-- The state `w'` can come after `w` within a visit. -/
structure Later (w w' : Worklist V S n) : Prop where
  frames : ∀ (k : Fin n) g, w.frames.get k = some g →
    ∃ g', w'.frames.get k = some g' ∧ g'.Extends g
  queue : ∀ k ∈ w.queue, k ∈ w'.queue
  changed : ∀ k : Fin n, w'.frames.get k ≠ w.frames.get k → k ∈ w'.queue

theorem Later.refl (w : Worklist V S n) : Later w w :=
  ⟨fun _ g hg => ⟨g, hg, .refl g⟩, fun _ h => h, fun _ h => absurd rfl h⟩

theorem Later.trans {a b c : Worklist V S n} (hab : Later a b) (hbc : Later b c) : Later a c := by
  refine ⟨?_, fun k hk => hbc.queue k (hab.queue k hk), ?_⟩
  · intro k g hg
    obtain ⟨g', hg', hgrown⟩ := hab.frames k g hg
    obtain ⟨g'', hg'', hgrown'⟩ := hbc.frames k g' hg'
    exact ⟨g'', hg'', hgrown'.trans hgrown⟩
  · intro k hk
    -- a place that changed on the whole way changed in one of the two parts
    by_cases hb : b.frames.get k = a.frames.get k
    · exact hbc.changed k (by rw [hb]; exact hk)
    · exact hbc.queue k (hab.changed k hb)

/-- The frame before an instruction has taken in a frame that reaches it. -/
def Received (w : Worklist V S n) (j : Nat) (f : Frame V) : Prop :=
  ∃ (hj : j < n) (g : Frame V), w.frames[j] = some g ∧ g.Absorbs f

theorem Received.later {w w' : Worklist V S n} {j : Nat} {f : Frame V} (h : w.Received j f)
    (hlater : Later w w') : w'.Received j f := by
  obtain ⟨hj, g, hg, habs⟩ := h
  obtain ⟨g', hg', hgrown⟩ := hlater.frames ⟨j, hj⟩ g hg
  exact ⟨hj, g', hg', hgrown.absorbs f habs⟩

/-- Storing is a step forward if the new frame may have grown from the old one. -/
theorem store_later (w : Worklist V S n) (target : Fin n) (f : Frame V)
    (hgrow : ∀ g, w.frames.get target = some g → f.Extends g) :
    Later w (w.store target f) := by
  refine ⟨?_, queue_subset_store w target f, ?_⟩
  · intro k g hg
    by_cases hk : k = target
    · subst hk
      exact ⟨f, frames_store_self w k f, hgrow g hg⟩
    · exact ⟨g, by rw [frames_store_ne w f hk, hg], .refl g⟩
  · intro k hk
    by_cases heq : k = target
    · subst heq
      exact mem_queue_store w k f
    · exact absurd (frames_store_ne w f heq) hk

/-- A frame is propagated by storing it, or by merging it into the frame that is there, which is
replaced if that changes it. -/
theorem propagate_eq_ok {w w' : Worklist V S n} {target : Fin n} {f : Frame V}
    (h : w.propagate target f = .ok w') :
    w.frames.get target = none ∧ w' = w.store target f ∨
      ∃ old, w.frames.get target = some old ∧ old.stack.length = f.stack.length ∧
        (w' = w ∧ old.Absorbs f ∨ w' = w.store target (old.merged f) ∧ old.merged f ≠ old) := by
  unfold propagate at h
  split at h
  · rename_i hnone
    exact .inl ⟨hnone, (Except.ok.inj h).symm⟩
  · rename_i old hold
    right
    split at h
    · cases h
    · rename_i same hmerge
      have hheight := (Frame.mergeFrom_eq_ok.1 hmerge).1
      exact ⟨old, hold, hheight,
        .inl ⟨(Except.ok.inj h).symm, Frame.absorbs_of_mergeFrom_false hmerge⟩⟩
    · rename_i merged hmerge
      obtain ⟨hheight, rfl, hchanged⟩ := Frame.mergeFrom_eq_ok.1 hmerge
      exact ⟨old, hold, hheight, .inr ⟨(Except.ok.inj h).symm, by simpa using hchanged⟩⟩

/-- Propagation is a step forward that delivers the frame and leaves the record alone. -/
theorem propagate_spec {w w' : Worklist V S n} {target : Fin n} {f : Frame V}
    (h : w.propagate target f = .ok w') :
    Later w w' ∧ w'.Received target f ∧ w'.record = w.record := by
  rcases propagate_eq_ok h with ⟨hnone, rfl⟩ | ⟨old, hold, hheight, ⟨rfl, habs⟩ | ⟨rfl, -⟩⟩
  · refine ⟨store_later w target f ?_, ?_, rfl⟩
    · intro g hg
      rw [hnone] at hg
      cases hg
    · exact ⟨target.isLt, f, frames_store_self w target f, Frame.absorbs_self f⟩
  · exact ⟨Later.refl _, ⟨target.isLt, old, hold, habs⟩, rfl⟩
  · refine ⟨store_later w target _ ?_, ?_, rfl⟩
    · intro g hg
      obtain rfl : old = g := Option.some.inj (hold.symm.trans hg)
      exact Frame.merged_extends old f
    · exact ⟨target.isLt, _, frames_store_self w target _, Frame.merged_absorbs hheight⟩

/-- A place without a frame takes the first one that reaches it. -/
theorem propagate_of_none {w : Worklist V S n} {target : Fin n} {f : Frame V}
    (h : w.frames.get target = none) : w.propagate target f = .ok (w.store target f) := by
  have hframe : w.frames[target] = none := h
  unfold propagate
  simp only [hframe]

/-- Frames of one height are merged, and stored if that changes something. -/
theorem propagate_of_height {w : Worklist V S n} {target : Fin n} {f old : Frame V}
    (h : w.frames.get target = some old) (hheight : old.stack.length = f.stack.length) :
    w.propagate target f = .ok w ∨ w.propagate target f = .ok (w.store target (old.merged f)) := by
  have hframe : w.frames[target] = some old := h
  have hmerge : old.mergeFrom f = .ok (old.merged f, decide (old.merged f ≠ old)) :=
    Frame.mergeFrom_eq_ok.2 ⟨hheight, rfl, rfl⟩
  unfold propagate
  simp only [hframe, hmerge]
  by_cases hsame : old.merged f = old
  · left
    simp [hsame]
  · right
    simp [hsame]

/-- Frames of different heights cannot be merged. -/
theorem propagate_of_mismatch {w : Worklist V S n} {target : Fin n} {f old : Frame V}
    (h : w.frames.get target = some old) (hheight : old.stack.length ≠ f.stack.length) :
    w.propagate target f =
      .error (.frame target (.heightMismatch old.stack.length f.stack.length)) := by
  have hframe : w.frames[target] = some old := h
  unfold propagate
  simp only [hframe, Frame.mergeFrom, if_neg hheight]

/-- What a place has received it need not be told again. -/
theorem propagate_of_received {w : Worklist V S n} {target : Fin n} {f : Frame V}
    (h : w.Received target f) : w.propagate target f = .ok w := by
  obtain ⟨_, g, hg, habsorbs⟩ := h
  have hframe : w.frames[target] = some g := hg
  have hmerge : g.mergeFrom f = .ok (g, false) := habsorbs
  unfold propagate
  simp only [hframe, hmerge]

/-! ## Following the edges of an instruction -/

/-- Within the method the edge to a handler is followed with the frame that it is entered with. -/
theorem enterHandler_of_lt {I : Interpreter V S} {before : Frame V} {w : Worklist V S n}
    {h : Handler} (hrange : h.target < n) : enterHandler I before w h =
      located h.target (I.handlerEntry w.record before) >>= w.propagate ⟨h.target, hrange⟩ := by
  unfold enterHandler
  rw [dif_pos hrange]
  cases I.handlerEntry w.record before with
  | error cause => rfl
  | ok entry => rfl

theorem enterHandler_spec {I : Interpreter V S} {before : Frame V} {w w' : Worklist V S n}
    {h : Handler} (hok : enterHandler I before w h = .ok w') :
    Later w w' ∧ w'.record = w.record ∧
      ∃ entry, I.handlerEntry w.record before = .ok entry ∧ w'.Received h.target entry := by
  unfold enterHandler at hok
  split at hok
  · split at hok
    · cases hok
    · rename_i entry hentry
      obtain ⟨hlater, hreceived, hrecord⟩ := propagate_spec hok
      exact ⟨hlater, hrecord, entry, hentry, hreceived⟩
  · cases hok

theorem enterSuccessor_spec {i : Nat} {after : Frame V} {w w' : Worklist V S n} {target : Nat}
    (hok : enterSuccessor i after w target = .ok w') :
    Later w w' ∧ w'.record = w.record ∧ w'.Received target after := by
  unfold enterSuccessor at hok
  split at hok
  · obtain ⟨hlater, hreceived, hrecord⟩ := propagate_spec hok
    exact ⟨hlater, hrecord, hreceived⟩
  · cases hok

/-- If following one edge is a step forward that achieves `Post`, and `Post` persists, then
following a list of edges achieves it for all of them. -/
theorem foldlM_spec {α : Type} {g : Worklist V S n → α → Except FlowError (Worklist V S n)}
    (record : S) (Post : α → Worklist V S n → Prop)
    (hg : ∀ w w' a, w.record = record → g w a = .ok w' →
      Later w w' ∧ w'.record = w.record ∧ Post a w')
    (hpost : ∀ w w' a, Later w w' → Post a w → Post a w')
    (as : List α) {w w' : Worklist V S n} (hrecord : w.record = record)
    (h : as.foldlM g w = .ok w') :
    Later w w' ∧ w'.record = record ∧ ∀ a ∈ as, Post a w' := by
  induction as generalizing w with
  | nil =>
    obtain rfl : w = w' := Except.ok.inj h
    exact ⟨Later.refl w, hrecord, fun a ha => absurd ha List.not_mem_nil⟩
  | cons a as ih =>
    rw [List.foldlM_cons] at h
    obtain ⟨next, hstep, hrest⟩ := bind_eq_ok.1 h
    obtain ⟨hlater, hsame, ha⟩ := hg w next a hrecord hstep
    obtain ⟨hlater', hrecord', has⟩ := ih (hsame.trans hrecord) hrest
    -- what the first edge achieved persists while the others are followed
    refine ⟨hlater.trans hlater', hrecord', ?_⟩
    intro b hb
    rcases List.mem_cons.1 hb with rfl | hb
    · exact hpost next w' b hlater' ha
    · exact has b hb

/-- A place without a frame is passed over. -/
theorem visit_of_none {I : Interpreter V S} {m : Method} {w : Worklist V S m.code.length}
    {i : Fin m.code.length} (h : w.frames.get i = none) : w.visit I m i = .ok w := by
  have hnone : w.frames[i] = none := h
  unfold visit
  rw [hnone]

/-- A visit succeeds if all handlers can be entered, the instruction can be executed, and all
successors can be entered. -/
theorem visit_eq_ok {I : Interpreter V S} {m : Method} {w w' : Worklist V S m.code.length}
    {i : Fin m.code.length} {before : Frame V} (hbefore : w.frames.get i = some before) :
    w.visit I m i = .ok w' ↔ ∃ w₁ record after,
      (m.handlersCovering i).foldlM (enterHandler I before) w = .ok w₁ ∧
      I.execute w₁.record i (m.code.get i) before = .ok (record, after) ∧
      (m.successors i).foldlM (enterSuccessor i after) { w₁ with record := record } = .ok w' := by
  have hframe : w.frames[i] = some before := hbefore
  unfold visit
  rw [hframe]
  constructor
  · intro h
    obtain ⟨w₁, hhandlers, h⟩ := bind_eq_ok.1 h
    obtain ⟨⟨record, after⟩, hexecute, hsuccessors⟩ := bind_eq_ok.1 h
    exact ⟨w₁, record, after, hhandlers, hexecute, hsuccessors⟩
  · rintro ⟨w₁, record, after, hhandlers, hexecute, hsuccessors⟩
    exact bind_eq_ok.2 ⟨w₁, hhandlers, bind_eq_ok.2 ⟨(record, after), hexecute, hsuccessors⟩⟩

/-- A successful visit executes the instruction on the frame before it and delivers the
outcome along every edge. -/
theorem visit_spec {I : Interpreter V S} {m : Method} {w w' : Worklist V S m.code.length}
    {i : Fin m.code.length} {before : Frame V} (hbefore : w.frames.get i = some before)
    (h : w.visit I m i = .ok w') :
    Later w w' ∧ ∃ after,
      I.execute w.record i (m.code.get i) before = .ok (w'.record, after) ∧
      (∀ j ∈ m.successors i, w'.Received j after) ∧
      ∀ h ∈ m.handlersCovering i,
        ∃ entry, I.handlerEntry w.record before = .ok entry ∧ w'.Received h.target entry := by
  obtain ⟨w₁, record, after, hhandlers, hexecute, hsuccessors⟩ := (visit_eq_ok hbefore).1 h
  -- the handlers come first; they see the record from before the execution
  obtain ⟨hlater₁, hrecord₁, hentered⟩ := foldlM_spec w.record
    (fun h w' => ∃ entry, I.handlerEntry w.record before = .ok entry ∧
      w'.Received h.target entry)
    (fun _ _ _ hrecord hok => hrecord ▸ enterHandler_spec hok)
    (fun _ _ _ hlater hentered => hentered.imp fun _ h => ⟨h.1, h.2.later hlater⟩)
    _ rfl hhandlers
  obtain ⟨hlater₂, hrecord₂, hreceived⟩ := foldlM_spec record
    (fun j w' => w'.Received j after)
    (fun _ _ _ _ hok => enterSuccessor_spec hok)
    (fun _ _ _ hlater hreceived => hreceived.later hlater)
    _ rfl hsuccessors
  -- noting the new record touches neither frames nor queue
  have hlater₂' : Later w₁ w' := ⟨hlater₂.frames, hlater₂.queue, hlater₂.changed⟩
  refine ⟨hlater₁.trans hlater₂', after, ?_, hreceived, ?_⟩
  · rw [hrecord₂, ← hrecord₁]
    exact hexecute
  · intro handler hmem
    obtain ⟨entry, hentry, hentered⟩ := hentered handler hmem
    exact ⟨entry, hentry, hentered.later hlater₂'⟩

/-- Whatever the place, a visit is a step forward. -/
theorem visit_later {I : Interpreter V S} {m : Method} {w w' : Worklist V S m.code.length}
    {i : Fin m.code.length} (h : w.visit I m i = .ok w') : Later w w' := by
  cases hbefore : w.frames.get i with
  | none =>
    rw [visit_of_none hbefore] at h
    obtain rfl := Except.ok.inj h
    exact .refl w
  | some before => exact (visit_spec hbefore h).1

/-! ## Properties of all stored frames -/

/-- Every stored frame has a property that may depend on its place. -/
def AllFrames (P : Nat → Frame V → Prop) (w : Worklist V S n) : Prop :=
  ∀ (k : Fin n) f, w.frames.get k = some f → P k f

/-- Merging two frames at one place keeps a property. -/
def MergeClosed (P : Nat → Frame V → Prop) : Prop :=
  ∀ k f g, P k f → P k g → f.stack.length = g.stack.length → P k (f.merged g)

variable {P : Nat → Frame V → Prop}

omit [JoinSemilattice V] [DecidableEq V] in
theorem allFrames_store {w : Worklist V S n} {target : Fin n} {f : Frame V}
    (h : w.AllFrames P) (hf : P target f) : (w.store target f).AllFrames P := by
  intro k g hg
  by_cases hk : k = target
  · subst hk
    rw [frames_store_self] at hg
    exact Option.some.inj hg ▸ hf
  · rw [frames_store_ne w f hk] at hg
    exact h k g hg

theorem allFrames_propagate (hmerge : MergeClosed P) {w w' : Worklist V S n} {target : Fin n}
    {f : Frame V} (h : w.AllFrames P) (hf : P target f) (hok : w.propagate target f = .ok w') :
    w'.AllFrames P := by
  rcases propagate_eq_ok hok with ⟨-, rfl⟩ | ⟨old, hold, hheight, ⟨rfl, -⟩ | ⟨rfl, -⟩⟩
  · exact allFrames_store h hf
  · exact h
  · exact allFrames_store h (hmerge target old f (h target old hold) hf hheight)

/-- Entering a handler keeps a property of all frames that its entry has. -/
theorem allFrames_enterHandler (hmerge : MergeClosed P) {I : Interpreter V S} {before : Frame V}
    {w w' : Worklist V S n} {h : Handler} (hw : w.AllFrames P)
    (hentry : ∀ entry, I.handlerEntry w.record before = .ok entry → P h.target entry)
    (hok : enterHandler I before w h = .ok w') : w'.AllFrames P := by
  unfold enterHandler at hok
  split at hok
  · split at hok
    · cases hok
    · rename_i entry hresult
      exact allFrames_propagate hmerge hw (hentry entry hresult) hok
  · cases hok

/-- Entering a successor keeps a property of all frames that the outcome has there. -/
theorem allFrames_enterSuccessor (hmerge : MergeClosed P) {i j : Nat} {after : Frame V}
    {w w' : Worklist V S n} (hw : w.AllFrames P) (hafter : P j after)
    (hok : enterSuccessor i after w j = .ok w') : w'.AllFrames P := by
  unfold enterSuccessor at hok
  split at hok
  · exact allFrames_propagate hmerge hw hafter hok
  · cases hok

/-- A visit keeps a property of all frames that the outcome of the instruction and the entries
of its handlers have. -/
theorem allFrames_visit (hmerge : MergeClosed P) {I : Interpreter V S} {m : Method}
    {w w' : Worklist V S m.code.length} {i : Fin m.code.length} {before : Frame V}
    (hbefore : w.frames.get i = some before) (h : w.AllFrames P)
    (hhandler : ∀ h ∈ m.handlersCovering i, ∀ entry,
      I.handlerEntry w.record before = .ok entry → P h.target entry)
    (hexecute : ∀ after, I.execute w.record i (m.code.get i) before = .ok (w'.record, after) →
      ∀ j ∈ m.successors i, P j after)
    (hok : w.visit I m i = .ok w') : w'.AllFrames P := by
  obtain ⟨-, after, hafter, -, -⟩ := visit_spec hbefore hok
  obtain ⟨w₁, record, after', hhandlers, houtcome, hsuccessors⟩ := (visit_eq_ok hbefore).1 hok
  obtain ⟨hrecord₁, hw₁⟩ : w₁.record = w.record ∧ w₁.AllFrames P := by
    refine foldlM_induction (P := fun v => v.record = w.record ∧ v.AllFrames P) _ ?_ ⟨rfl, h⟩
      hhandlers
    intro v v' handler hmem hkept hstep
    obtain ⟨hrecord, hv⟩ := hkept
    refine ⟨(enterHandler_spec hstep).2.1.trans hrecord, ?_⟩
    refine allFrames_enterHandler hmerge hv ?_ hstep
    rw [hrecord]
    exact hhandler handler hmem
  -- the handlers leave the record alone, so this is the execution that `hexecute` speaks of
  rw [hrecord₁, hafter] at houtcome
  obtain ⟨rfl, rfl⟩ := Prod.mk.inj (Except.ok.inj houtcome)
  have hrecorded : ({ w₁ with record := w'.record } : Worklist V S _).AllFrames P := hw₁
  refine foldlM_induction _ ?_ hrecorded hsuccessors
  intro v v' j hmem hv hstep
  exact allFrames_enterSuccessor hmerge hv (hexecute after hafter j hmem) hstep

end Later

/-! ## Whole runs -/

/-- The state from which the first place of the queue is visited. -/
def dequeued (w : Worklist V S n) (rest : List (Fin n)) : Worklist V S n :=
  { w with queue := rest, steps := w.steps + 1 }

section Ends

variable [JoinSemilattice V] [DecidableEq V] {I : Interpreter V S} {m : Method}
  {w last : Worklist V S m.code.length}
  {outcome outcome' : Except FlowError (Worklist V S m.code.length)}

/-- Visiting the first place of the queue again and again ends like this. Nothing bounds how
often a value can grow here; where something does, `run` computes the end (`run_eq_iff`). -/
inductive Ends (I : Interpreter V S) (m : Method) : Worklist V S m.code.length →
    Except FlowError (Worklist V S m.code.length) → Prop
  | done {w : Worklist V S m.code.length} (hq : w.queue = []) : Ends I m w (.ok w)
  | failed {w : Worklist V S m.code.length} {i : Fin m.code.length}
      {rest : List (Fin m.code.length)} {e : FlowError} (hq : w.queue = i :: rest)
      (hvisit : visit I m (w.dequeued rest) i = .error e) : Ends I m w (.error e)
  | visited {w w' : Worklist V S m.code.length} {i : Fin m.code.length}
      {rest : List (Fin m.code.length)} {outcome : Except FlowError (Worklist V S m.code.length)}
      (hq : w.queue = i :: rest) (hvisit : visit I m (w.dequeued rest) i = .ok w')
      (later : Ends I m w' outcome) : Ends I m w outcome

/-- Nothing is left to choice, so there is one end at most. -/
theorem Ends.unique (h : Ends I m w outcome) (h' : Ends I m w outcome') : outcome = outcome' := by
  induction h with
  | done hq =>
    cases h' with
    | done => rfl
    | failed hq' => simp [hq] at hq'
    | visited hq' => simp [hq] at hq'
  | failed hq hvisit =>
    cases h' with
    | done hq' => simp [hq'] at hq
    | failed hq' hvisit' =>
      obtain ⟨rfl, rfl⟩ := List.cons.inj (hq.symm.trans hq')
      simpa using hvisit.symm.trans hvisit'
    | visited hq' hvisit' =>
      obtain ⟨rfl, rfl⟩ := List.cons.inj (hq.symm.trans hq')
      simp [hvisit] at hvisit'
  | visited hq hvisit _ ih =>
    cases h' with
    | done hq' => simp [hq'] at hq
    | failed hq' hvisit' =>
      obtain ⟨rfl, rfl⟩ := List.cons.inj (hq.symm.trans hq')
      simp [hvisit] at hvisit'
    | visited hq' hvisit' later' =>
      obtain ⟨rfl, rfl⟩ := List.cons.inj (hq.symm.trans hq')
      obtain rfl := Except.ok.inj (hvisit.symm.trans hvisit')
      exact ih later'

/-- What every visit keeps holds at the end, where the queue is empty. -/
theorem ends_induction {P : Worklist V S m.code.length → Prop}
    (visited : ∀ w i rest w', P w → w.queue = i :: rest → visit I m (w.dequeued rest) i = .ok w' →
      Ends I m w' (.ok last) → P w')
    (hw : P w) (h : Ends I m w (.ok last)) : P last ∧ last.queue = [] := by
  generalize houtcome : Except.ok last = outcome at h
  induction h with
  | done hq =>
    obtain rfl := Except.ok.inj houtcome
    exact ⟨hw, hq⟩
  | failed => cases houtcome
  | visited hq hvisit later ih =>
    subst houtcome
    exact ih (visited _ _ _ _ hw hq hvisit later) rfl

/-- A run that is cut off after a number of visits. -/
def runFor (I : Interpreter V S) (m : Method) : Nat → Worklist V S m.code.length →
    Option (Except FlowError (Worklist V S m.code.length))
  | 0, _ => none
  | visits + 1, w =>
    match w.queue with
    | [] => some (.ok w)
    | i :: rest =>
      match visit I m (w.dequeued rest) i with
      | .error e => some (.error e)
      | .ok w' => runFor I m visits w'

/-- Once enough visits are allowed, the end is what it would be without a limit. -/
theorem ends_of_runFor {visits : Nat} (h : runFor I m visits w = some outcome) :
    Ends I m w outcome := by
  induction visits generalizing w with
  | zero => cases h
  | succ visits ih =>
    rw [runFor] at h
    cases hq : w.queue with
    | nil =>
      rw [hq] at h
      obtain rfl := Option.some.inj h
      exact .done hq
    | cons i rest =>
      rw [hq] at h
      cases hvisit : visit I m (w.dequeued rest) i with
      | error e =>
        simp only [hvisit] at h
        obtain rfl := Option.some.inj h
        exact .failed hq hvisit
      | ok w' =>
        simp only [hvisit] at h
        exact .visited hq hvisit (ih h)

end Ends

section Run

variable [FiniteHeight V] [DecidableEq V] {I : Interpreter V S} {m : Method}

theorem run_of_nil {w : Worklist V S m.code.length} (hq : w.queue = []) :
    run I m w = .ok w := by
  rw [run]
  split
  · rfl
  · rename_i i rest hcons
    simp [hq] at hcons

/-- A run visits the first place of the queue and goes on. -/
theorem run_of_cons {w : Worklist V S m.code.length} {i : Fin m.code.length}
    {rest : List (Fin m.code.length)} (hq : w.queue = i :: rest) :
    run I m w = visit I m (w.dequeued rest) i >>= run I m := by
  rw [run]
  split
  · rename_i hnil
    simp [hq] at hnil
  · rename_i i' rest' hcons
    obtain ⟨rfl, rfl⟩ := List.cons.inj (hq.symm.trans hcons)
    split
    · rename_i e hvisit
      rw [dequeued, hvisit]
      rfl
    · rename_i w' hvisit
      rw [dequeued, hvisit]
      rfl

/-- Where values have finite height, every run ends. -/
theorem ends_run (w : Worklist V S m.code.length) : Ends I m w (run I m w) := by
  induction w using run.induct I m with
  | case1 w hq =>
    rw [run_of_nil hq]
    exact .done hq
  | case2 w i rest hq e hvisit =>
    have hvisit' : visit I m (w.dequeued rest) i = .error e := hvisit
    rw [run_of_cons hq, hvisit']
    exact .failed hq hvisit'
  | case3 w i rest hq w' hvisit ih =>
    have hvisit' : visit I m (w.dequeued rest) i = .ok w' := hvisit
    rw [run_of_cons hq, hvisit']
    exact .visited hq hvisit' ih

theorem run_eq_iff {w : Worklist V S m.code.length}
    {outcome : Except FlowError (Worklist V S m.code.length)} :
    run I m w = outcome ↔ Ends I m w outcome := by
  constructor
  · intro h
    exact h ▸ ends_run w
  · intro h
    exact (ends_run w).unique h

end Run
end Worklist
end PoolLint.Flow

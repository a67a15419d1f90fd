import PoolLint.Proofs.Flow.Path
import PoolLint.Proofs.Flow.Stability

/-!
# The frame table covers every path

A finished frame table is compared with the frames that some interpreter `J` finds along single
paths. If the two start alike and execute instructions alike, then the frame at the end of any
path is related to the one that the table holds there. The relation has to survive merging,
which may only replace a value of the table by one that absorbs it.

The lemmas go hop by hop (`covers_successor`, `covers_handler`), because in some comparisons the
calls only agree as long as something has not happened on the path yet. Where they always agree,
`covers_along` is the conclusion for whole paths.
-/

namespace PoolLint.Flow

open PoolLint.Bytecode

variable {V W S T : Type} {m : Method}

/-! ## Frames of the method -/

namespace Frame

theorem Related.of_height {f : Frame V} {g : Frame W} (hf : f.SameShape m f)
    (hg : g.SameShape m g) (h : f.stack.length = g.stack.length) : f.SameShape m g :=
  sameShape_of_length (hf.width.trans hg.width.symm) h hf.width hf.limit hg.limit

variable [JoinSemilattice V]

/-- Merging another frame in keeps the shape. -/
theorem Related.merged {f : Frame V} {g : Frame W} (h : f.SameShape m g) (f' : Frame V) :
    (f.merged f').SameShape m g := by
  have hlocals : (f.merged f').locals.length = f.locals.length := length_mergeValues _ _
  have hstack : (f.merged f').stack.length = f.stack.length := length_mergeValues _ _
  exact sameShape_of_length (hlocals.trans h.locals.length_eq) (hstack.trans h.stack.length_eq)
    (hlocals.trans h.width) h.limit h.limit'

theorem forall₂_absorbed {R : W → V → Prop} (hgrow : ∀ w v v', R w v → merge v' v = v' → R w v')
    {ws : List W} {vs vs' : List V} (h : List.Forall₂ R ws vs) (hlen : vs'.length = vs.length)
    (habsorbs : mergeValues vs' vs = vs') : List.Forall₂ R ws vs' := by
  induction h generalizing vs' with
  | nil =>
    obtain rfl := List.eq_nil_of_length_eq_zero hlen
    exact .nil
  | cons hhead htail ih =>
    cases vs' with
    | nil => cases hlen
    | cons v' vs' =>
      obtain ⟨hv', hvs'⟩ := List.cons.inj habsorbs
      exact .cons (hgrow _ _ _ hhead hv') (ih (Nat.succ.inj hlen) hvs')

/-- What is related to a frame is related to any frame that absorbs it. -/
theorem Related.absorbed [DecidableEq V] {R : W → V → Prop}
    (hgrow : ∀ w v v', R w v → merge v' v = v' → R w v') {f : Frame W} {g g' : Frame V}
    (h : f.Related m R g) (habsorbs : g'.Absorbs g) (hg' : g'.SameShape m g') :
    f.Related m R g' := by
  obtain ⟨hheight, hlocals, hstack⟩ := absorbs_iff.1 habsorbs
  refine ⟨?_, forall₂_absorbed hgrow h.stack hheight hstack, h.width, h.limit, hg'.limit⟩
  refine forall₂_absorbed hgrow h.locals ?_ hlocals
  rw [hg'.width, ← h.locals.length_eq, h.width]

end Frame

variable [FiniteHeight V] [DecidableEq V] {I : Interpreter V S} {le : S → S → Prop} {s : S}
  {a : Analysis V S}

/-- The table holds frames of the method. -/
theorem analyze_sameShape (hI : I.Accumulates le) (hshape : I.KeepsShape)
    (h : analyze I s m = .ok a) {i : Nat} {f : Frame V} (hf : a.frame? i = some f) :
    f.SameShape m f := by
  refine ((analyzes_iff.2 h).frames (P := fun _ f => f.SameShape m f) (Q := fun _ => True) hI ?_ ?_
    trivial).1 i f hf
  · refine ⟨?_, ?_, ?_⟩
    · intro i instr s s' f f' _ hf _ hexecute _
      have halike := Interpreter.execute_sameShape (s := s) (t := s) (i := i) hshape hshape instr hf
      obtain ⟨b, -, hb⟩ := halike.exists_ok hexecute
      exact ⟨trivial, fun _ _ => hb.left⟩
    · intro i handler s f entry hf _ _ hentry
      have halike := Interpreter.handlerEntry_alike (I := I) (J := I) (s := s) (t := s) trivial hf
      obtain ⟨b, -, hb⟩ := halike.exists_ok hentry
      exact hb.left
    · intro k f g hf _ _
      exact (hf.merged g).left
  · exact Frame.Related.new trivial

/-! ## Coverage -/

/-- The table holds a frame at the place to which this frame is related. -/
def Analysis.Covers (a : Analysis V S) (m : Method) (R : W → V → Prop) (i : Nat) (f : Frame W) :
    Prop :=
  ∃ g, a.frame? i = some g ∧ f.Related m R g

/-- The values that `J` and `I` come up with outside of calls are related, and the relation
survives merging. -/
structure Interpreter.Simulates (J : Interpreter W T) (I : Interpreter V S) (R : W → V → Prop) :
    Prop where
  newValue : ∀ t s, R (J.newValue t) (I.newValue s)
  fresh : ∀ t s i instr, R (J.fresh t i instr).2 (I.fresh s i instr).2
  grow : ∀ w v v', R w v → merge v' v = v' → R w v'

section Covers

variable {J : Interpreter W T} {R : W → V → Prop} {t : T} {f : Frame W} {i : Nat}

theorem covers_of_received (hI : I.Accumulates le) (hshape : I.KeepsShape)
    (h : analyze I s m = .ok a) (hsim : J.Simulates I R) {g : Frame V} (hfg : f.Related m R g)
    (hg : a.Received i g) : a.Covers m R i f := by
  obtain ⟨g', hg', habsorbs⟩ := hg
  exact ⟨g', hg', hfg.absorbed hsim.grow habsorbs (analyze_sameShape hI hshape h hg')⟩

theorem covers_entry (hI : I.Accumulates le) (hshape : I.KeepsShape) (h : analyze I s m = .ok a)
    (hsim : J.Simulates I R) :
    a.Covers m R 0 (Frame.new m.maxLocals m.maxStack (J.newValue t)) := by
  obtain ⟨g, hg, hgrown⟩ := (analyzes_iff.2 h).entry
  exact covers_of_received hI hshape h hsim (.new (hsim.newValue t s))
    ⟨g, hg, hgrown.absorbs _ (Frame.absorbs_self _)⟩

/-- From a covered frame execution cannot fail, and it leads to covered frames. -/
theorem covers_successor (hI : I.Accumulates le) (hshape : I.KeepsShape)
    (h : analyze I s m = .ok a) (hsim : J.Simulates I R) (hf : a.Covers m R i f)
    (hcall : ∀ call argCount g u u' after, m.code[i]? = some (.invoke call) →
      call.argCount? = some argCount → a.frame? i = some g → f.Related m R g →
      I.execute u i (.invoke call) g = .ok (u', after) → le u' a.record →
        J.CallsAlike m I R t u i call argCount f g) :
    ∃ instr t' f', m.code[i]? = some instr ∧ J.execute t i instr f = .ok (t', f') ∧
      ∀ k ∈ m.successors i, a.Covers m R k f' := by
  obtain ⟨g, hg, hfg⟩ := hf
  obtain ⟨instr, u, u', after, hcode, hexecute, hle, hsuccessors, -⟩ :=
    (analyzes_iff.2 h).settled hI hg
  -- the table's own frame was executed without failure, so this one cannot fail either
  have halike := Interpreter.execute_alike (s := t) (t := u) instr (hsim.fresh t u i instr)
    (fun call argCount hinstr hcount =>
      hcall call argCount g u u' after (hinstr ▸ hcode) hcount hg hfg (hinstr ▸ hexecute) hle) hfg
  obtain ⟨⟨t', f'⟩, hf', hrelated⟩ := halike.symm.exists_ok hexecute
  refine ⟨instr, t', f', hcode, hf', ?_⟩
  intro k hk
  exact covers_of_received hI hshape h hsim hrelated (hsuccessors k hk)

/-- Entering a handler from a covered frame leads to a covered frame. -/
theorem covers_handler (hI : I.Accumulates le) (hshape : I.KeepsShape)
    (h : analyze I s m = .ok a) (hsim : J.Simulates I R) (hf : a.Covers m R i f)
    {handler : Handler} (hmem : handler ∈ m.handlersCovering i) :
    ∃ entry, J.handlerEntry t f = .ok entry ∧ a.Covers m R handler.target entry := by
  obtain ⟨g, hg, hfg⟩ := hf
  obtain ⟨-, -, -, -, -, -, -, -, hhandlers⟩ := (analyzes_iff.2 h).settled hI hg
  obtain ⟨u, entry', hentry', hreceived⟩ := hhandlers handler hmem
  have halike := Interpreter.handlerEntry_alike (s := t) (t := u) (hsim.newValue t u) hfg
  obtain ⟨entry, hentry, hrelated⟩ := halike.symm.exists_ok hentry'
  exact ⟨entry, hentry, covers_of_received hI hshape h hsim hrelated hreceived⟩

/-- If calls agree at all frames then the run along any path succeeds and is covered. -/
theorem covers_along (hI : I.Accumulates le) (hshape : I.KeepsShape) (h : analyze I s m = .ok a)
    (hsim : J.Simulates I R)
    (hcall : ∀ t u i call argCount f g, J.CallsAlike m I R t u i call argCount f g)
    {p : List Hop} (hp : Path m 0 p i) :
    ∃ t' f, J.along m t p = .ok (t', f) ∧ a.Covers m R i f := by
  -- by induction on the path: wherever it has led so far, the table covers the run
  induction hp with
  | nil => exact ⟨t, _, rfl, covers_entry hI hshape h hsim⟩
  | normal path edge ih =>
    obtain ⟨t₁, f₁, halong, hcovers⟩ := ih
    obtain ⟨instr, t', f', hcode, hexecute, hsuccessors⟩ := covers_successor hI hshape h hsim
      hcovers fun call argCount g u _ _ _ _ _ _ _ _ => hcall t₁ u _ call argCount f₁ g
    refine ⟨t', f', ?_, hsuccessors _ edge⟩
    rw [Interpreter.along_normal halong hcode, hexecute]
  | caught path covers ih =>
    obtain ⟨t₁, f₁, halong, hcovers⟩ := ih
    obtain ⟨entry, hentry, hentered⟩ := covers_handler hI hshape h hsim hcovers covers
    exact ⟨t₁, entry, Interpreter.along_caught halong hentry, hentered⟩

end Covers
end PoolLint.Flow

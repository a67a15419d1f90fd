import PoolLint.Proofs.Flow.FrameTable
import PoolLint.Proofs.Ownership.LeakVerdict

/-!
# The holders of the instance are exact

Along a single path a place holds the instance if its value was moved there from the result of the
obtaining call (`provenance`). The frames of a finished analysis are merged from many paths, and a
release rewrites a whole merged frame. For a kind whose release yields no result they still say
exactly which places hold the instance on some path (`holders_exact`): a place is tracked or
released if and only if there is a path on which it holds the instance.

No holder is lost, because the table covers the reading of every path. No holder is invented,
because every frame of the table is realised: what it takes for the instance is the instance on
some path to it. The tracker takes the result of a release for the instance, and so frames are
realised first by readings that follow the instance through releases. A release that yields no
result has nothing to hand back, so those readings are the plain ones.
-/

namespace PoolLint

open PoolLint.Bytecode PoolLint.Flow

variable {kind : ResourceKind} {obtainAt i : Nat} {m : Method} {p : List Hop} {f : Frame Ownership}
  {a : Analysis Ownership Evidence}

/-! ## Releases that yield no result -/

/-- A call that pushes no result hands nothing back. -/
theorem execute_handsBack {handsBack : CallSite → Bool}
    (hnone : ∀ site, handsBack site = true → site.returnsValue = false) (obtainAt i : Nat)
    (instr : Instruction) (g : Frame Bool) :
    (provenanceThrough handsBack obtainAt).execute () i instr g =
      (provenance obtainAt).execute () i instr g := by
  cases instr with
  | invoke site =>
    have hinvoke : ∀ argCount, (provenanceThrough handsBack obtainAt).invoke () i site argCount g =
        (provenance obtainAt).invoke () i site argCount g := by
      intro argCount
      unfold Interpreter.invoke
      apply bind_congr
      intro popped
      by_cases hreturns : site.returnsValue = true
      · -- the results agree, since this call is not one that hands its argument back
        have hhands : handsBack site = false := by
          rw [← Bool.not_eq_true]
          intro hhands
          rw [hnone site hhands] at hreturns
          cases hreturns
        simp only [provenance, provenanceThrough, hhands]
      · simp only [hreturns]
        rfl
    simp only [Interpreter.execute, hinvoke]
  | _ => rfl

/-- Where the calls that are followed yield no result, following them makes no difference. -/
theorem along_handsBack {handsBack : CallSite → Bool}
    (hnone : ∀ site, handsBack site = true → site.returnsValue = false) (obtainAt : Nat)
    (m : Method) (p : List Hop) :
    (provenanceThrough handsBack obtainAt).along m () p = (provenance obtainAt).along m () p := by
  have hhop : (provenanceThrough handsBack obtainAt).hop m = (provenance obtainAt).hop m := by
    funext state hop
    unfold Interpreter.hop
    simp only [execute_handsBack hnone]
    rfl
  unfold Interpreter.along
  rw [hhop]
  rfl

/-- A call that is a release of the kind yields no result if the release of the kind does not. -/
theorem returnsValue_of_isRecycleCall (hvoid : [')', 'V'] <:+ kind.release.desc.toList)
    {site : CallSite} (h : Tracker.isRecycleCall kind site = true) : site.returnsValue = false := by
  have hrelease : kind.isRelease site = true := (Bool.and_eq_true_iff.1 h).2
  have hdesc : site.desc = kind.release.desc := by
    simp only [ResourceKind.isRelease, Bool.and_eq_true, beq_iff_eq] at hrelease
    exact hrelease.2
  have hsuffix : [')', 'V'].isSuffixOf kind.release.desc.toList = true :=
    List.isSuffixOf_iff_suffix.2 hvoid
  rw [CallSite.returnsValue, Descriptor.returnsValue, hdesc, hsuffix]
  rfl

/-! ## The frames of the table are realised -/

/-- All frames of the table are realised by readings that follow the instance through releases, and
the record has whatever executions on such frames keep. -/
theorem realised_table {Q : Evidence → Prop} (h : trackInstance m obtainAt kind = .ok a)
    (hnone : Q .none)
    (hexecute : ∀ {i instr e e' f f'}, m.code[i]? = some instr →
      Realised (Tracker.isRecycleCall kind) obtainAt m i f → Q e →
        (tracker kind obtainAt).execute e i instr f = .ok (e', f') → Q e') :
    (∀ i f, a.frame? i = some f → Realised (Tracker.isRecycleCall kind) obtainAt m i f) ∧
      Q a.record := by
  have hkept : Worklist.Kept (tracker kind obtainAt) m Evidence.Within a.record
      (Realised (Tracker.isRecycleCall kind) obtainAt m) Q := by
    refine ⟨?_, ?_, fun _ _ _ => Realised.merged⟩
    · intro i instr e e' f f' hcode hf he hexecute' _
      have hhands : ∀ site, instr = .invoke site → GivesBack kind obtainAt i instr f .tracked →
          Tracker.isRecycleCall kind site = true := fun _ hsite hgives => hgives.isRecycleCall hsite
      exact ⟨hexecute hcode hf he hexecute', fun j hj => hf.successor hcode hhands hexecute' hj⟩
    · intro i handler e f entry hf _ hmem hentry
      exact hf.handler hmem hentry
  exact (analyzes_iff.2 h).frames (tracker_accumulates kind obtainAt) hkept .entry hnone

/-- What the table takes for the instance is the instance on some path, if readings follow it
through releases. -/
theorem realised_of_frame (h : trackInstance m obtainAt kind = .ok a) (hf : a.frame? i = some f) :
    Realised (Tracker.isRecycleCall kind) obtainAt m i f :=
  (realised_table (Q := fun _ => True) h trivial fun _ _ _ _ => trivial).1 i f hf

/-- If the release yields no result then these readings are the plain ones. -/
theorem Reads.along_provenance (hvoid : [')', 'V'] <:+ kind.release.desc.toList) {g : Frame Bool}
    (h : Reads (Tracker.isRecycleCall kind) obtainAt m p i g) :
    (provenance obtainAt).along m () p = .ok ((), g) := by
  rw [← along_handsBack (fun site hsite => returnsValue_of_isRecycleCall hvoid hsite)]
  exact h.along

/-- A place that the table takes for the instance holds it on some path that is read plainly. -/
theorem held_of_isInstance (hvoid : [')', 'V'] <:+ kind.release.desc.toList)
    (h : trackInstance m obtainAt kind = .ok a) (hf : a.frame? i = some f) {q : Place}
    {v : Ownership} (hv : f.value? q = some v) (hinstance : v.isInstance = true) :
    ∃ p g, Path m 0 p i ∧ (provenance obtainAt).along m () p = .ok ((), g) ∧
      g.value? q = some true := by
  obtain ⟨p, g, hreads, -, hheld⟩ := (realised_of_frame h hf).isInstance q v hv hinstance
  exact ⟨p, g, hreads.path, hreads.along_provenance hvoid, hheld⟩

/-! ## The frames of the table cover every path -/

/-- A place that holds the instance on some path is taken for it by the table. -/
theorem isInstance_of_held (h : trackInstance m obtainAt kind = .ok a) (hf : a.frame? i = some f)
    {q : Place} {v : Ownership} (hv : f.value? q = some v) (hp : Path m 0 p i) {g : Frame Bool}
    (halong : (provenance obtainAt).along m () p = .ok ((), g)) (hheld : g.value? q = some true) :
    v.isInstance = true := by
  obtain ⟨f', hf', hfollows⟩ := provenance_covers h hp halong
  obtain rfl : f = f' := Option.some.inj (hf.symm.trans hf')
  obtain ⟨v', hv', hfollow⟩ := hfollows.value? hheld
  obtain rfl : v = v' := Option.some.inj (hv.symm.trans hv')
  exact hfollow rfl

theorem Ownership.isInstance_iff {v : Ownership} :
    v.isInstance = true ↔ v = .tracked ∨ v = .released := by
  cases v <;> decide

/-- If the release of the kind yields no result, the table of a finished analysis has a frame for
every instruction that control can reach, and a place of it is tracked or released exactly if the
instance is at that place on some path to the instruction. Every path can be read, and leads to a
frame with as many slots and entries as the one of the table. -/
theorem holders_exact (hvoid : [')', 'V'] <:+ kind.release.desc.toList)
    (h : trackInstance m obtainAt kind = .ok a) {i : Nat} (hi : m.Reachable i) :
    ∃ f, a.frame? i = some f ∧
      (∀ p, Path m 0 p i →
        ∃ g, (provenance obtainAt).along m () p = .ok ((), g) ∧ f.SameShape m g) ∧
      ∀ q v, f.value? q = some v → ((v = .tracked ∨ v = .released) ↔
        ∃ p g, Path m 0 p i ∧ (provenance obtainAt).along m () p = .ok ((), g) ∧
          g.value? q = some true) := by
  have hanalyzes : Analyzes (tracker kind obtainAt) .none m (.ok a) := analyzes_iff.2 h
  obtain ⟨f, hf⟩ := Analysis.isReachable_eq_true.1 ((hanalyzes.isReachable_iff i).2 hi)
  refine ⟨f, hf, ?_, ?_⟩
  · intro p hp
    obtain ⟨g, halong, f', hf', hfollows⟩ := provenance_covered h hp
    obtain rfl : f = f' := Option.some.inj (hf.symm.trans hf')
    exact ⟨g, halong, hfollows.sameShape.flip⟩
  · intro q v hv
    rw [← Ownership.isInstance_iff]
    constructor
    · intro hinstance
      exact held_of_isInstance hvoid h hf hv hinstance
    · rintro ⟨p, g, hp, halong, hheld⟩
      exact isInstance_of_held h hf hv hp halong hheld

set_option maxRecDepth 10000 in
/-- In the guarded loop the parcel is in the slot before its release, on the path straight to it;
so the slot is tracked or released there in the table. -/
theorem holders_exact_of_loop : ∃ a f v,
    trackInstance guardedLoop 0 ResourceTable.parcel = .ok a ∧ a.frame? 3 = some f ∧
      f.value? (.slot 0) = some v ∧ (v = .tracked ∨ v = .released) := by
  obtain ⟨a, ha, -⟩ := track_guardedLoop
  obtain ⟨-, -, hrelease⟩ := reachable_guardedLoop
  have hvoid : [')', 'V'] <:+ ResourceTable.parcel.release.desc.toList := by decide
  obtain ⟨f, hf, hread, hexact⟩ := holders_exact hvoid ha hrelease
  have hp : Path guardedLoop 0 (walk 0 [1, 2, 3]) 3 := path_walk (by decide)
  obtain ⟨g, halong, hshape⟩ := hread _ hp
  obtain rfl : ⟨[true], [true], some 1⟩ = g := (Prod.mk.inj (Except.ok.inj halong)).2
  obtain ⟨v, hv, -⟩ := hshape.flip.value? (p := .slot 0) (v := true) rfl
  exact ⟨a, f, v, ha, hf, hv, (hexact (.slot 0) v hv).2 ⟨_, _, hp, halong, rfl⟩⟩

end PoolLint

import PoolLint.Ownership.Verdict
import PoolLint.Proofs.Ownership.Grounds
import PoolLint.Proofs.Ownership.Provenance
import PoolLint.Resource.Table

/-!
# The leak verdict is exact

The tracker works on merged frames, and its releases edit whole frames, so it is not monotone.
Nevertheless its verdict says exactly what happens to the instance along the paths of a method,
where each path is read on its own (`leaked_iff_no_path`).

In one direction, the frame table covers every reading, and an execution on a covering frame
records what the reading does. In the other direction, as long as no path releases the instance
the tracker releases nothing either; up to there all frames are realised, and whatever is
recorded happens on the path that realises it.
-/

namespace PoolLint

open PoolLint.Bytecode PoolLint.Flow

/-! ## What may become of the instance at an instruction -/

/-- A release of the kind gives the instance back. -/
def ReleasesAt (kind : ResourceKind) (obtainAt : Nat) (m : Method) (i : Nat) (g : Frame Bool) :
    Prop :=
  ∃ instr, m.code[i]? = some instr ∧ GivesBack kind obtainAt i instr g true

/-- The instance is stored into a field or an array, or returned. -/
def HandsOverAt (m : Method) (i : Nat) (g : Frame Bool) : Prop :=
  ∃ instr, m.code[i]? = some instr ∧ instr.handsOver = true ∧ g.value? (.entry 0) = some true

/-- A call that is not known to leave the instance with its owner takes it as an argument other
than the receiver. -/
def PassesOnAt (kind : ResourceKind) (obtainAt : Nat) (m : Method) (i : Nat) (g : Frame Bool) :
    Prop :=
  i ≠ obtainAt ∧ ∃ site args k, m.code[i]? = some (.invoke site) ∧
    kind.preservesIdentity site = false ∧ g.args? site = some args ∧ args[k]? = some true ∧
      (if site.kind.hasReceiver then 1 else 0) ≤ k

/-- The instance leaves the method. -/
def LeavesAt (kind : ResourceKind) (obtainAt : Nat) (m : Method) (i : Nat) (g : Frame Bool) :
    Prop :=
  HandsOverAt m i g ∨ PassesOnAt kind obtainAt m i g

variable {kind : ResourceKind} {obtainAt i : Nat} {m : Method} {p : List Hop} {g : Frame Bool}
  {f : Frame Ownership} {a : Analysis Ownership Evidence}

/-! ## What paths do is recorded -/

/-- The table marks a place as released only if a release is recorded. -/
theorem recycled_of_released (h : trackInstance m obtainAt kind = .ok a)
    (hf : a.frame? i = some f) {q : Place} (hq : f.value? q = some .released) :
    a.record.recycled = true := by
  obtain ⟨executed, hvalues, -⟩ := grounded_of_trackInstance h
  exact (hvalues i f hf).released q hq

/-- The place is marked as the instance where the reading says that it is the instance. -/
def Follows (b : Bool) (v : Ownership) : Prop :=
  b = true → v.isInstance = true

theorem provenance_simulates (kind : ResourceKind) (obtainAt : Nat) :
    (provenance obtainAt).Simulates (tracker kind obtainAt) Follows := by
  refine ⟨fun _ _ => nofun, fun _ _ _ _ => nofun, ?_⟩
  intro b v v' hv hmerge hb
  have hinstance := hv hb
  cases v with
  | unknown => cases hinstance
  | tracked | released => cases v' <;> first | rfl | cases hmerge

theorem provenance_callsAlike (u : Unit) (e : Evidence) (i : Nat) (site : CallSite)
    (argCount : Nat) (g : Frame Bool) (f : Frame Ownership) :
    (provenance obtainAt).CallsAlike m (tracker kind obtainAt) Follows u e i site argCount g f := by
  intro args' g' args f' _ _ _ hfg
  show (_ → Follows (decide (i = obtainAt) || false)
      (Tracker.call kind obtainAt e i site args f').2.1) ∧
    g'.Related m Follows (Tracker.call kind obtainAt e i site args f').2.2
  by_cases hi : i = obtainAt
  · subst hi
    rw [Tracker.call_obtain]
    exact ⟨fun _ _ => rfl, hfg⟩
  · rw [decide_eq_false hi]
    refine ⟨fun _ => nofun, ?_⟩
    by_cases hrelease : Tracker.isRecycleCall kind site = true ∧ args = [.tracked]
    · obtain ⟨hsite, rfl⟩ := hrelease
      rw [Tracker.call_release hi hsite]
      refine hfg.map ?_
      intro b v hv hb
      rw [Tracker.isInstance_markReleased]
      exact hv hb
    · rw [Tracker.call_use hi hrelease]
      exact hfg

/-- Every path can be read, and the table covers the reading. -/
theorem provenance_covered (h : trackInstance m obtainAt kind = .ok a) (hp : Path m 0 p i) :
    ∃ g, (provenance obtainAt).along m () p = .ok ((), g) ∧ a.Covers m Follows i g := by
  obtain ⟨_, g, halong, hcovers⟩ := covers_along (t := ()) (tracker_accumulates kind obtainAt)
    (tracker_keepsShape kind obtainAt) h (provenance_simulates kind obtainAt)
    provenance_callsAlike hp
  exact ⟨g, halong, hcovers⟩

/-- The reading of a path is unique, so the table covers whichever reading is given. -/
theorem provenance_covers (h : trackInstance m obtainAt kind = .ok a) (hp : Path m 0 p i)
    (halong : (provenance obtainAt).along m () p = .ok ((), g)) : a.Covers m Follows i g := by
  obtain ⟨g', halong', hcovers⟩ := provenance_covered h hp
  obtain rfl : g' = g := (Prod.mk.inj (Except.ok.inj (halong'.symm.trans halong))).2
  exact hcovers

/-- Every instruction with a frame is executed on it, and the record contains what comes of
that. -/
theorem executed_at (h : trackInstance m obtainAt kind = .ok a) (hf : a.frame? i = some f)
    {instr : Instruction} (hcode : m.code[i]? = some instr) :
    ∃ e e' f', (tracker kind obtainAt).execute e i instr f = .ok (e', f') ∧
      e'.Within a.record := by
  obtain ⟨instr', e, e', f', hcode', hexecute, hwithin, -, -⟩ :=
    (analyzes_iff.2 h).settled (tracker_accumulates kind obtainAt) hf
  obtain rfl : instr' = instr := Option.some.inj (hcode'.symm.trans hcode)
  exact ⟨e, e', f', hexecute, hwithin⟩

/-- A release on some path is recorded. -/
theorem recycled_of_releasesAt (h : trackInstance m obtainAt kind = .ok a)
    (hcovers : a.Covers m Follows i g) (hreleases : ReleasesAt kind obtainAt m i g) :
    a.record.recycled = true := by
  obtain ⟨f, hf, hrelated⟩ := hcovers
  obtain ⟨instr, hcode, hi, site, rfl, hsite, hargs⟩ := hreleases
  obtain ⟨args, hargs', hfollow⟩ := hrelated.args? hargs
  obtain ⟨v, hv, rfl⟩ := Frame.singleton_of_forall₂ hfollow
  have hinstance := hv rfl
  cases v with
  | unknown => cases hinstance
  | tracked =>
    obtain ⟨e, e', f', hexecute, hwithin⟩ := executed_at h hf hcode
    exact hwithin.recycled (recycled_of_givesBack hexecute ⟨hi, site, rfl, hsite, hargs'⟩)
  | released =>
    -- this release came too late for the merged frame, so that one was recorded before
    obtain ⟨k, hk, -⟩ := Frame.args?_place hargs' (j := 0) rfl
    exact recycled_of_released h hf hk

/-- An escape from the final frame of an instruction is recorded. -/
theorem mem_escapes_of_notesEscape (h : trackInstance m obtainAt kind = .ok a)
    (hf : a.frame? i = some f) {instr : Instruction} (hcode : m.code[i]? = some instr)
    (hnotes : NotesEscape kind obtainAt i instr f) : i ∈ a.record.escapes := by
  obtain ⟨e, e', f', hexecute, hwithin⟩ := executed_at h hf hcode
  exact hwithin.escapes i ((mem_escapes_execute hexecute).2 (.inr ⟨rfl, hnotes⟩))

/-- A use after release in the final frame of an instruction is recorded. -/
theorem mem_doubleReleases_of_notesUse (h : trackInstance m obtainAt kind = .ok a)
    (hf : a.frame? i = some f) {instr : Instruction} (hcode : m.code[i]? = some instr)
    (hnotes : NotesUse kind obtainAt i instr f) : i ∈ a.record.doubleReleases := by
  obtain ⟨e, e', f', hexecute, hwithin⟩ := executed_at h hf hcode
  exact hwithin.doubleReleases i ((mem_doubleReleases_execute hexecute).2 (.inr ⟨rfl, hnotes⟩))

/-- Where a path stores or returns the instance, so does every frame that covers the path. -/
theorem notesEscape_of_handsOverAt (hfg : g.Related m Follows f) (h : HandsOverAt m i g) :
    ∃ instr, m.code[i]? = some instr ∧ NotesEscape kind obtainAt i instr f := by
  obtain ⟨instr, hcode, hhands, htop⟩ := h
  obtain ⟨v, hv, hfollow⟩ := hfg.value? htop
  exact ⟨instr, hcode, .inl ⟨hhands, v, hv, hfollow rfl⟩⟩

/-- Where a path passes the instance on, a frame that covers the path has it as an argument as
well: tracked, so that it escapes, or released, so that the call is a use after release. -/
theorem noted_of_passesOnAt (hfg : g.Related m Follows f)
    (h : PassesOnAt kind obtainAt m i g) : ∃ instr, m.code[i]? = some instr ∧
      (NotesEscape kind obtainAt i instr f ∨ NotesUse kind obtainAt i instr f) := by
  obtain ⟨hi, site, args, k, hcode, hpreserves, hargs, hk, hfirst⟩ := h
  obtain ⟨args', hargs', hfollow⟩ := hfg.args? hargs
  obtain ⟨v, hv, hvfollow⟩ := Frame.getElem?_of_forall₂ hfollow hk
  have hinstance := hvfollow rfl
  refine ⟨.invoke site, hcode, ?_⟩
  cases v with
  | unknown => cases hinstance
  | tracked => exact .inl ((notesEscape_invoke hargs').2 ⟨hi, hpreserves, k, hv, hfirst⟩)
  | released =>
    right
    refine (notesUse_invoke hargs').2 ⟨hi, k, hv, ?_⟩
    rw [hpreserves]
    exact nofun

/-- If the instance leaves the method on some path, this is recorded; or a release is. -/
theorem recorded_of_leavesAt (h : trackInstance m obtainAt kind = .ok a)
    (hcovers : a.Covers m Follows i g) (hleaves : LeavesAt kind obtainAt m i g) :
    a.record.recycled = true ∨ i ∈ a.record.escapes := by
  obtain ⟨f, hf, hrelated⟩ := hcovers
  rcases hleaves with hhands | hpasses
  · obtain ⟨instr, hcode, hnotes⟩ := notesEscape_of_handsOverAt hrelated hhands
    exact .inr (mem_escapes_of_notesEscape h hf hcode hnotes)
  · obtain ⟨instr, hcode, hnotes | ⟨-, site, args, k, -, hargs, hk, -⟩⟩ :=
      noted_of_passesOnAt hrelated hpasses
    · exact .inr (mem_escapes_of_notesEscape h hf hcode hnotes)
    · obtain ⟨place, hplace, -⟩ := Frame.args?_place hargs hk
      exact .inl (recycled_of_released h hf hplace)

/-! ## What is recorded happens on paths -/

/-- An escape from a realised frame is one on some path. -/
theorem leavesAt_of_notesEscape {handsBack : CallSite → Bool} {instr : Instruction}
    (hf : Realised handsBack obtainAt m i f) (hcode : m.code[i]? = some instr)
    (hnotes : NotesEscape kind obtainAt i instr f) :
    ∃ p g, Reads handsBack obtainAt m p i g ∧ LeavesAt kind obtainAt m i g := by
  rcases hnotes with ⟨hhands, v, hv, hinstance⟩ |
    ⟨hi, site, args, k, rfl, hpreserves, hargs, hk, hfirst⟩
  · obtain ⟨p, g, hreads, -, htrue⟩ := hf.isInstance (.entry 0) v hv hinstance
    exact ⟨p, g, hreads, .inl ⟨instr, hcode, hhands, htrue⟩⟩
  · obtain ⟨p, g, args', hreads, -, hargs', -, htrue⟩ := hf.args hargs hk rfl
    exact ⟨p, g, hreads, .inr ⟨hi, site, args', k, hcode, hpreserves, hargs', htrue, hfirst⟩⟩

/-- No release is recorded, and where an escape is recorded some path has it. -/
def Explained (kind : ResourceKind) (obtainAt : Nat) (m : Method) (e : Evidence) : Prop :=
  e.recycled = false ∧ ∀ j ∈ e.escapes,
    ∃ p g, Reads (fun _ => false) obtainAt m p j g ∧ LeavesAt kind obtainAt m j g

/-- An execution on a realised frame records what some path has, unless it is a release. -/
theorem Explained.execute {e e' : Evidence} {f' : Frame Ownership} {instr : Instruction}
    (he : Explained kind obtainAt m e) (hf : Realised (fun _ => false) obtainAt m i f)
    (hcode : m.code[i]? = some instr) (hgives : ¬GivesBack kind obtainAt i instr f .tracked)
    (h : (tracker kind obtainAt).execute e i instr f = .ok (e', f')) :
    Explained kind obtainAt m e' := by
  obtain ⟨hrecycled, hescapes⟩ := he
  refine ⟨?_, ?_⟩
  · rw [← Bool.not_eq_true, recycled_execute h, hrecycled]
    simp [hgives]
  · intro j hj
    rcases (mem_escapes_execute h).1 hj with hj | ⟨rfl, hnotes⟩
    · exact hescapes j hj
    · exact leavesAt_of_notesEscape hf hcode hnotes

/-- If no path releases the instance then no release is recorded, and escapes are those of
paths. -/
theorem explained_of_no_release (h : trackInstance m obtainAt kind = .ok a)
    (hnone : ∀ p i g, Reads (fun _ => false) obtainAt m p i g →
      ¬ReleasesAt kind obtainAt m i g) : Explained kind obtainAt m a.record := by
  -- frames stay realised only because the tracker never comes to a release
  have hnever : ∀ {i instr f}, m.code[i]? = some instr →
      Realised (fun _ => false) obtainAt m i f → ¬GivesBack kind obtainAt i instr f .tracked := by
    intro i instr f hcode hf hgives
    obtain ⟨p, g, hreads, -, hgives'⟩ := hf.givesBack rfl hgives
    exact hnone p i g hreads ⟨instr, hcode, hgives'⟩
  have hkept : Worklist.Kept (tracker kind obtainAt) m Evidence.Within a.record
      (Realised (fun _ => false) obtainAt m) (Explained kind obtainAt m) := by
    refine ⟨?_, ?_, fun _ _ _ => Realised.merged⟩
    · intro i instr e e' f f' hcode hf he hexecute _
      refine ⟨he.execute hf hcode (hnever hcode hf) hexecute, ?_⟩
      intro k hk
      exact hf.successor hcode (fun _ _ hgives => absurd hgives (hnever hcode hf)) hexecute hk
    · intro i handler e f entry hf _ hmem hentry
      exact hf.handler hmem hentry
  exact ((analyzes_iff.2 h).frames (tracker_accumulates kind obtainAt) hkept .entry
    ⟨rfl, fun _ => nofun⟩).2

/-! ## The verdict -/

/-- Whenever the check of a method succeeds, every path can be read; a release is recorded
exactly if some path gives the instance back, and the verdict is a leak exactly if no path does
so and the instance leaves the method on none. -/
theorem leaked_iff_no_path {report : FlowReport}
    (h : checkMethodFlow m obtainAt kind = .ok report) :
    ∃ a, trackInstance m obtainAt kind = .ok a ∧
      (∀ p i, Path m 0 p i → ∃ g, (provenance obtainAt).along m () p = .ok ((), g)) ∧
      (a.record.recycled = true ↔ ∃ p i g, Path m 0 p i ∧
        (provenance obtainAt).along m () p = .ok ((), g) ∧ ReleasesAt kind obtainAt m i g) ∧
      (report.verdict = .leaked ↔ ∀ p i g, Path m 0 p i →
        (provenance obtainAt).along m () p = .ok ((), g) →
          ¬ReleasesAt kind obtainAt m i g ∧ ¬LeavesAt kind obtainAt m i g) := by
  obtain ⟨a, ha, rfl⟩ := checkMethodFlow_eq_ok.1 h
  refine ⟨a, ha, ?_, ⟨?_, ?_⟩, ⟨?_, ?_⟩⟩
  · intro p i hp
    obtain ⟨g, halong, -⟩ := provenance_covered ha hp
    exact ⟨g, halong⟩
  · intro hrecycled
    by_contra hnone
    -- without a release on any path the record would be explained, hence without one too
    have hexplained := explained_of_no_release ha fun p i g hreads hreleases =>
      hnone ⟨p, i, g, hreads.path, hreads.along, hreleases⟩
    rw [hexplained.1] at hrecycled
    cases hrecycled
  · rintro ⟨p, i, g, hp, halong, hreleases⟩
    exact recycled_of_releasesAt ha (provenance_covers ha hp halong) hreleases
  · intro hleaked p i g hp halong
    obtain ⟨hrecycled, hescapes⟩ := Evidence.verdict_eq_leaked.1 hleaked
    have hcovers := provenance_covers ha hp halong
    refine ⟨?_, ?_⟩
    · intro hreleases
      rw [recycled_of_releasesAt ha hcovers hreleases] at hrecycled
      cases hrecycled
    · intro hleaves
      rcases recorded_of_leavesAt ha hcovers hleaves with hrecycled' | hescape
      · rw [hrecycled'] at hrecycled
        cases hrecycled
      · rw [hescapes] at hescape
        cases hescape
  · intro hnone
    obtain ⟨hrecycled, hescapes⟩ := explained_of_no_release ha fun p i g hreads =>
      (hnone p i g hreads.path hreads.along).1
    refine Evidence.verdict_eq_leaked.2 ⟨hrecycled, ?_⟩
    refine List.eq_nil_iff_forall_not_mem.2 ?_
    intro j hj
    obtain ⟨p, g, hreads, hleaves⟩ := hescapes j hj
    exact (hnone p j g hreads.path hreads.along).2 hleaves

/-! ### A method that releases on one branch only -/

/-- `Parcel.obtain()` -/
def obtainParcel : Instruction :=
  .invoke ⟨.static, "android/os/Parcel", "obtain", "()Landroid/os/Parcel;"⟩

/-- `parcel.recycle()` -/
def recycleParcel : Instruction :=
  .invoke ⟨.virtual, "android/os/Parcel", "recycle", "()V"⟩

/-- A static method without parameters and without handlers. -/
def plainMethod (maxLocals : Nat) (code : List Instruction) : Method where
  name := "run"
  desc := "()V"
  isStatic := true
  maxLocals := maxLocals
  maxStack := none
  code := code
  handlers := []
  lines := []

def releaseOnOneBranch : Method :=
  plainMethod 0 [obtainParcel, .const (.int 0), .ifZero 5, recycleParcel, .goto 6, .pop, .ret]

set_option maxRecDepth 10000 in
/-- One branch that releases is enough: the verdict is not a leak, although the other branch
only drops the parcel. -/
theorem leaked_iff_no_path_of_branch : ∃ report,
    checkMethodFlow releaseOnOneBranch 0 ResourceTable.parcel = .ok report ∧
      report.verdict ≠ .leaked ∧ ∃ p i g, Path releaseOnOneBranch 0 p i ∧
        (provenance 0).along releaseOnOneBranch () p = .ok ((), g) ∧
          ReleasesAt ResourceTable.parcel 0 releaseOnOneBranch i g := by
  obtain ⟨a, ha, hrecord⟩ :
      ∃ a, trackInstance releaseOnOneBranch 0 ResourceTable.parcel = .ok a ∧
        a.record = ⟨true, [], []⟩ :=
    analyze_of_runFor 20 _ (by decide) (by decide) (by decide)
  have hreport := checkMethodFlow_eq_ok.2 ⟨a, ha, rfl⟩
  obtain ⟨a', ha', -, hreleased, -⟩ := leaked_iff_no_path hreport
  obtain rfl : a = a' := Except.ok.inj (ha.symm.trans ha')
  refine ⟨_, hreport, ?_, hreleased.1 (by rw [hrecord])⟩
  show a.record.verdict ≠ .leaked
  rw [hrecord]
  decide

end PoolLint

import PoolLint.Proofs.Flow.Coverage
import PoolLint.Proofs.Flow.FrameTable
import PoolLint.Proofs.Flow.SmallSteps
import PoolLint.Proofs.Ownership.Tracking

/-!
# What the evidence is grounded in

The tracker's record, the values of its frames and the instructions that it has executed hang
together at every point of a run, in the middle of a visit as well as at the end
(`evidence_grounded`). A value is released only once a release is recorded, and tracked only once
the obtaining call was executed; a use after release is recorded only once a release is; and what is
recorded was executed, and is an instruction of the right sort.

None of this looks at paths. It needs no more than the exact effect of one execution on the record
(`recycled_execute`, `mem_escapes_execute`, `mem_doubleReleases_execute`) and the origins of the
values after it (`tracker_values`).
-/

namespace PoolLint

open PoolLint.Bytecode PoolLint.Flow

variable {kind : ResourceKind} {obtainAt i : Nat} {m : Method} {instr : Instruction}
  {executed : List Nat} {e e' : Evidence} {f f' : Frame Ownership}

/-! ## Values -/

/-- The instruction that yields the instance is a call, and was executed. -/
def Obtained (obtainAt : Nat) (m : Method) (executed : List Nat) : Prop :=
  (∃ site, m.code[obtainAt]? = some (.invoke site)) ∧ obtainAt ∈ executed

/-- A frame has released values only if a release is recorded, and tracked ones only if the
instance was obtained. -/
structure ValuesGrounded (obtainAt : Nat) (m : Method) (executed : List Nat) (e : Evidence)
    (f : Frame Ownership) : Prop where
  shape : f.SameShape m f
  released : ∀ q, f.value? q = some .released → e.recycled = true
  tracked : ∀ q, f.value? q = some .tracked → Obtained obtainAt m executed

namespace ValuesGrounded

/-- At the start no value is tracked or released. -/
theorem entry :
    ValuesGrounded obtainAt m executed e (Frame.new m.maxLocals m.maxStack .unknown) := by
  refine ⟨.new trivial, ?_, ?_⟩
  · intro q hq
    cases Frame.value?_new hq
  · intro q hq
    cases Frame.value?_new hq

/-- Evidence that was found once grounds values later on as well. -/
theorem later (h : ValuesGrounded obtainAt m executed e f) (hwithin : e.Within e') (i : Nat) :
    ValuesGrounded obtainAt m (executed ++ [i]) e' f := by
  refine ⟨h.shape, ?_, ?_⟩
  · intro q hq
    exact hwithin.recycled (h.released q hq)
  · intro q hq
    obtain ⟨hsite, hmem⟩ := h.tracked q hq
    exact ⟨hsite, List.mem_append_left _ hmem⟩

/-- Values that come from a grounded frame are grounded, if a release is recorded where one marks
values, and the instance is obtained where it is yielded. -/
theorem of_tracked (h : ValuesGrounded obtainAt m executed e f) {n : Frame Origin}
    {obtained released : Prop} (hvalues : n.Related m (Tracked f obtained released) f')
    (hobtained : obtained → Obtained obtainAt m executed)
    (hreleased : released → e.recycled = true) : ValuesGrounded obtainAt m executed e f' := by
  refine ⟨hvalues.right, ?_, ?_⟩
  · intro q hq
    obtain ⟨o, -, ho⟩ := hvalues.flip.value? hq
    rcases ho.of_released with ⟨source, -, hsource⟩ | hrelease
    · exact h.released source hsource
    · exact hreleased hrelease
  · intro q hq
    obtain ⟨o, -, ho⟩ := hvalues.flip.value? hq
    rcases ho.of_tracked with ⟨source, -, hsource⟩ | hobtain
    · exact h.tracked source hsource
    · exact hobtained hobtain

/-- An execution keeps values grounded. -/
theorem execute (h : ValuesGrounded obtainAt m executed e f) (hcode : m.code[i]? = some instr)
    (hexecute : (tracker kind obtainAt).execute e i instr f = .ok (e', f')) :
    ValuesGrounded obtainAt m (executed ++ [i]) e' f' := by
  have hwithin : e.Within e' := (tracker_accumulates kind obtainAt).execute hexecute
  obtain ⟨n, -, hvalues⟩ := tracker_values h.shape hexecute
  refine (h.later hwithin i).of_tracked hvalues ?_ (recycled_of_givesBack hexecute)
  rintro ⟨rfl, site, rfl⟩
  exact ⟨⟨site, hcode⟩, List.mem_append_right _ (List.mem_singleton.2 rfl)⟩

/-- Entering a handler keeps values grounded. -/
theorem handler (h : ValuesGrounded obtainAt m executed e f)
    (hentry : (tracker kind obtainAt).handlerEntry e f = .ok f') :
    ValuesGrounded obtainAt m executed e f' := by
  obtain ⟨n, -, hvalues⟩ := tracker_entry_values h.shape hentry
  exact h.of_tracked hvalues False.elim False.elim

/-- A merged value is tracked or released only if one of the two is so. -/
theorem merged (h : ValuesGrounded obtainAt m executed e f)
    (h' : ValuesGrounded obtainAt m executed e f')
    (hheight : f.stack.length = f'.stack.length) :
    ValuesGrounded obtainAt m executed e (f.merged f') := by
  have hshape := h.shape.of_height h'.shape hheight
  refine ⟨(h.shape.merged f').left, ?_, ?_⟩
  · intro q hq
    obtain ⟨b, c, hb, hc, hbc⟩ := Frame.value?_merged hshape hq
    have hsource : b = .released ∨ c = .released := by
      revert hbc
      cases b <;> cases c <;> decide
    rcases hsource with rfl | rfl
    · exact h.released q hb
    · exact h'.released q hc
  · intro q hq
    obtain ⟨b, c, hb, hc, hbc⟩ := Frame.value?_merged hshape hq
    have hsource : b = .tracked ∨ c = .tracked := by
      revert hbc
      cases b <;> cases c <;> decide
    rcases hsource with rfl | rfl
    · exact h.tracked q hb
    · exact h'.tracked q hc

end ValuesGrounded

/-! ## Records -/

/-- Uses after release are recorded only if a release is, at calls other than the obtaining one;
escapes are recorded at calls other than the obtaining one, and where values are stored or
returned. All of these instructions were executed. -/
structure RecordGrounded (obtainAt : Nat) (m : Method) (executed : List Nat) (e : Evidence) :
    Prop where
  recycled : e.doubleReleases ≠ [] → e.recycled = true
  doubleReleases : ∀ j ∈ e.doubleReleases, j ∈ executed ∧ j ≠ obtainAt ∧
    ∃ site, m.code[j]? = some (.invoke site)
  escapes : ∀ j ∈ e.escapes, j ∈ executed ∧ ∃ instr, m.code[j]? = some instr ∧
    (instr.handsOver = true ∨ j ≠ obtainAt ∧ ∃ site, instr = .invoke site)

theorem recordGrounded_none : RecordGrounded obtainAt m [] .none :=
  ⟨fun h => absurd rfl h, fun _ => nofun, fun _ => nofun⟩

/-- An execution on a grounded frame keeps the record grounded. -/
theorem RecordGrounded.execute (h : RecordGrounded obtainAt m executed e)
    (hf : ValuesGrounded obtainAt m executed e f) (hcode : m.code[i]? = some instr)
    (hexecute : (tracker kind obtainAt).execute e i instr f = .ok (e', f')) :
    RecordGrounded obtainAt m (executed ++ [i]) e' := by
  have hwithin : e.Within e' := (tracker_accumulates kind obtainAt).execute hexecute
  have hnow : i ∈ executed ++ [i] := List.mem_append_right _ (List.mem_singleton.2 rfl)
  refine ⟨?_, ?_, ?_⟩
  · intro hne
    obtain ⟨j, hj⟩ := List.exists_mem_of_ne_nil _ hne
    rcases (mem_doubleReleases_execute hexecute).1 hj with
      hold | ⟨-, -, site, args, k, -, hargs, hk, -⟩
    · exact hwithin.recycled (h.recycled (List.ne_nil_of_mem hold))
    · -- the released argument is a value of the frame
      obtain ⟨place, hplace, -⟩ := Frame.args?_place hargs hk
      exact hwithin.recycled (hf.released _ hplace)
  · intro j hj
    rcases (mem_doubleReleases_execute hexecute).1 hj with hold | ⟨rfl, hi, site, -, -, rfl, -⟩
    · obtain ⟨hmem, hother⟩ := h.doubleReleases j hold
      exact ⟨List.mem_append_left _ hmem, hother⟩
    · exact ⟨hnow, hi, site, hcode⟩
  · intro j hj
    rcases (mem_escapes_execute hexecute).1 hj with
      hold | ⟨rfl, ⟨hhands, -⟩ | ⟨hi, site, -, -, rfl, -⟩⟩
    · obtain ⟨hmem, hother⟩ := h.escapes j hold
      exact ⟨List.mem_append_left _ hmem, hother⟩
    · exact ⟨hnow, instr, hcode, .inl hhands⟩
    · exact ⟨hnow, _, hcode, .inr ⟨hi, site, rfl⟩⟩

/-! ## Runs -/

theorem tracker_carried (kind : ResourceKind) (obtainAt : Nat) (m : Method) :
    Point.Carried (tracker kind obtainAt) m (ValuesGrounded obtainAt m)
      (RecordGrounded obtainAt m) := by
  refine ⟨?_, ?_, ValuesGrounded.handler, ValuesGrounded.merged⟩
  · intro executed i instr e e' f f' hcode hf he hexecute
    exact ⟨hf.execute hcode hexecute, he.execute hf hcode hexecute⟩
  · intro executed i instr e e' f f' g hexecute hg
    exact hg.later ((tracker_accumulates kind obtainAt).execute hexecute) i

/-- A point of a run of the tracker at which frames, record and executed instructions hang
together. -/
structure Grounded (obtainAt : Nat) (m : Method)
    (c : Point Ownership Evidence m.code.length) : Prop where
  values : ∀ f, c.Has f → ValuesGrounded obtainAt m c.executed c.state.record f
  record : RecordGrounded obtainAt m c.executed c.state.record
  reached : ∀ j ∈ c.executed, ∃ (hj : j < m.code.length) (f : Frame Ownership),
    c.state.frames[j] = some f

theorem grounded_of_passes {hne : 0 < m.code.length}
    {c : Point Ownership Evidence m.code.length}
    (h : Point.Passes (tracker kind obtainAt) m (.start (tracker kind obtainAt) .none m hne) c) :
    Grounded obtainAt m c := by
  obtain ⟨hvalues, hrecord⟩ := h.sound (tracker_carried kind obtainAt m)
    (Point.sound_start hne .entry recordGrounded_none)
  refine ⟨hvalues, hrecord, ?_⟩
  intro j hj
  exact h.present (Point.present_start hne) j (.inl hj)

/-- The frames and the record of a finished analysis are grounded. -/
theorem grounded_of_trackInstance {a : Analysis Ownership Evidence}
    (h : trackInstance m obtainAt kind = .ok a) : ∃ executed,
      (∀ i f, a.frame? i = some f → ValuesGrounded obtainAt m executed a.record f) ∧
        RecordGrounded obtainAt m executed a.record := by
  obtain ⟨hne, executed, w, hpasses, -, rfl⟩ := (analyzes_iff.2 h).passes
  obtain ⟨hvalues, hrecord, -⟩ := grounded_of_passes hpasses
  refine ⟨executed, ?_, hrecord⟩
  intro i f hf
  obtain ⟨hi, hfi⟩ := (frame?_eq_some w).1 hf
  exact hvalues f (.inl ⟨⟨i, hi⟩, hfi⟩)

/-- At every point of a run of the tracker, whether the run succeeds or not, released values,
tracked values and uses after release are grounded in the evidence, and what is recorded was
executed, has a frame and is an instruction of the right sort. An analysis that succeeds consists of
the frames and the record of such a point. So where the verdict is a leak no use after release is
reported. -/
theorem evidence_grounded (m : Method) (obtainAt : Nat) (kind : ResourceKind) :
    (∀ (hne : 0 < m.code.length) (c : Point Ownership Evidence m.code.length),
      Point.Passes (tracker kind obtainAt) m (.start (tracker kind obtainAt) .none m hne) c →
        Grounded obtainAt m c) ∧
    (∀ a, trackInstance m obtainAt kind = .ok a → ∃ hne executed w,
      Point.Passes (tracker kind obtainAt) m (.start (tracker kind obtainAt) .none m hne)
        ⟨executed, .idle, w⟩ ∧ w.queue = [] ∧ a = ⟨w.frames.toList, w.record, w.steps⟩) ∧
    ∀ report, checkMethodFlow m obtainAt kind = .ok report → report.verdict = .leaked →
      report.doubleReleases = [] := by
  refine ⟨fun hne c => grounded_of_passes, fun a ha => (analyzes_iff.2 ha).passes, ?_⟩
  intro report h hleaked
  obtain ⟨a, ha, rfl⟩ := checkMethodFlow_eq_ok.1 h
  obtain ⟨hrecycled, -⟩ := Evidence.verdict_eq_leaked.1 hleaked
  obtain ⟨executed, -, hrecord⟩ := grounded_of_trackInstance ha
  by_contra hne
  rw [hrecord.recycled hne] at hrecycled
  cases hrecycled

/-- A parcel is obtained and dropped. -/
def droppedParcel : Method where
  name := "run"
  desc := "()V"
  isStatic := true
  maxLocals := 0
  maxStack := none
  code := [.invoke ⟨.static, "android/os/Parcel", "obtain", "()Landroid/os/Parcel;"⟩, .pop, .ret]
  handlers := []
  lines := []

set_option maxRecDepth 10000 in
/-- In the guarded loop the release is reported as a use after release; so it was executed. A parcel
that is dropped is leaked, and no use of it is reported. -/
theorem evidence_grounded_of_loop :
    (∃ a hne executed w,
      trackInstance guardedLoop 0 ResourceTable.parcel = .ok a ∧ a.record = ⟨true, [], [3]⟩ ∧
        Point.Passes (tracker ResourceTable.parcel 0) guardedLoop
          (.start (tracker ResourceTable.parcel 0) .none guardedLoop hne) ⟨executed, .idle, w⟩ ∧
        w.record = a.record ∧ 3 ∈ executed) ∧
      ∃ report, checkMethodFlow droppedParcel 0 ResourceTable.parcel = .ok report ∧
        report.verdict = .leaked ∧ report.doubleReleases = [] := by
  constructor
  · obtain ⟨a, ha, hrecord⟩ := track_guardedLoop
    obtain ⟨hgrounded, htable, -⟩ := evidence_grounded guardedLoop 0 ResourceTable.parcel
    obtain ⟨hne, executed, w, hpasses, -, rfl⟩ := htable a ha
    have hfinal : w.record = ⟨true, [], [3]⟩ := hrecord
    have hreported : 3 ∈ w.record.doubleReleases := by
      rw [hfinal]
      decide
    obtain ⟨hexecuted, -⟩ := (hgrounded hne _ hpasses).record.doubleReleases 3 hreported
    exact ⟨_, hne, executed, w, ha, hrecord, hpasses, rfl, hexecuted⟩
  · obtain ⟨a, ha, hrecord⟩ : ∃ a, trackInstance droppedParcel 0 ResourceTable.parcel = .ok a ∧
        a.record = .none := analyze_of_runFor 10 _ (by decide) (by decide) (by decide)
    have hleaked : a.record.verdict = .leaked := by
      rw [hrecord]
      decide
    have hreport := checkMethodFlow_eq_ok.2 ⟨a, ha, rfl⟩
    obtain ⟨-, -, hunused⟩ := evidence_grounded droppedParcel 0 ResourceTable.parcel
    exact ⟨_, hreport, hleaked, hunused _ hreport hleaked⟩

end PoolLint

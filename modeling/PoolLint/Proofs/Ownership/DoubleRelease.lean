import PoolLint.Proofs.Ownership.UseAfterRelease

/-!
# Reported uses come after a release

Where the frame table marks a place as released, this need not be so on any single path: a merged
frame can hold the instance in two places that hold it on different paths, and a release through
one of them then marks the other. What the table does know is that two paths meet at a release
and go on together (`SharedRelease`): the first one has given the instance back when it leaves
the release, and on the second one the place holds the instance. If the two are the same path,
then the instance is used after its release on that path.
-/

namespace PoolLint

open PoolLint.Bytecode PoolLint.Flow

/-- Two paths meet at the release `r`, leave it for `k`, and go on together to `i`. The first one
has given the instance back when it leaves `r`; the reading of the second one ends with `g`. -/
structure SharedRelease (kind : ResourceKind) (obtainAt : Nat) (m : Method) (r k : Nat)
    (first second onward : List Hop) (i : Nat) (g : Frame Bool) : Prop where
  isRelease : r ≠ obtainAt ∧ ∃ site, m.code[r]? = some (.invoke site) ∧
    Tracker.isRecycleCall kind site = true
  first_path : Path m 0 first r
  second_path : Path m 0 second r
  onward_path : Path m r (⟨r, k, false⟩ :: onward) i
  released : ∃ e f, (tracker kind obtainAt).along m .none (first ++ [⟨r, k, false⟩]) =
    .ok (e, f) ∧ e.recycled = true
  reading : (provenanceThrough (Tracker.isRecycleCall kind) obtainAt).along m ()
    (second ++ ⟨r, k, false⟩ :: onward) = .ok ((), g)

/-- The instance may have been given back before `i`, where a second path reads as `g`. -/
def ReleasedBefore (kind : ResourceKind) (obtainAt : Nat) (m : Method) (i : Nat)
    (g : Frame Bool) : Prop :=
  ∃ r k first second onward, SharedRelease kind obtainAt m r k first second onward i g

variable {kind : ResourceKind} {obtainAt i k : Nat} {m : Method} {p : List Hop}
  {e e' : Evidence} {f f' : Frame Ownership} {g g' : Frame Bool} {instr : Instruction}
  {a : Analysis Ownership Evidence}

theorem ReleasedBefore.successor (h : ReleasedBefore kind obtainAt m i g)
    (hcode : m.code[i]? = some instr)
    (hexecute : (provenanceThrough (Tracker.isRecycleCall kind) obtainAt).execute () i instr g =
      .ok ((), g')) (hk : k ∈ m.successors i) : ReleasedBefore kind obtainAt m k g' := by
  obtain ⟨r, k₀, first, second, onward, hshared⟩ := h
  have honward := hshared.onward_path.normal hk
  rw [List.cons_append] at honward
  refine ⟨r, k₀, first, second, onward ++ [⟨i, k, false⟩], hshared.isRelease,
    hshared.first_path, hshared.second_path, honward, hshared.released, ?_⟩
  rw [← List.cons_append, ← List.append_assoc]
  exact (Interpreter.along_normal hshared.reading hcode).trans hexecute

theorem ReleasedBefore.handler {handler : Handler} (h : ReleasedBefore kind obtainAt m i g)
    (hmem : handler ∈ m.handlersCovering i)
    (hentry : (provenanceThrough (Tracker.isRecycleCall kind) obtainAt).handlerEntry () g =
      .ok g') : ReleasedBefore kind obtainAt m handler.target g' := by
  obtain ⟨r, k₀, first, second, onward, hshared⟩ := h
  have honward := hshared.onward_path.caught hmem
  rw [List.cons_append] at honward
  refine ⟨r, k₀, first, second, onward ++ [⟨i, handler.target, true⟩], hshared.isRelease,
    hshared.first_path, hshared.second_path, honward, hshared.released, ?_⟩
  rw [← List.cons_append, ← List.append_assoc]
  exact Interpreter.along_caught hshared.reading hentry

/-! ## Readings and runs of one path -/

/-- Until the run along a path records a release, it marks whatever the reading follows. -/
def MarksAll (b : Bool) (v : Ownership) : Prop :=
  b = true → v = .tracked

theorem reading_callsAlike {site : CallSite} {argCount : Nat} {after : Frame Ownership} {u : Unit}
    (hcount : site.argCount? = some argCount)
    (hexecute : (tracker kind obtainAt).execute e i (.invoke site) f = .ok (e', after))
    (hunreleased : e'.recycled = false) :
    (provenanceThrough (Tracker.isRecycleCall kind) obtainAt).CallsAlike m (tracker kind obtainAt)
      MarksAll u e i site argCount g f := by
  intro args' g₁ args f₁ _ hpop hargs hfg
  show (_ → MarksAll
      (decide (i = obtainAt) || Tracker.isRecycleCall kind site && decide (args' = [true]))
      (Tracker.call kind obtainAt e i site args f₁).2.1) ∧
    g₁.Related m MarksAll (Tracker.call kind obtainAt e i site args f₁).2.2
  by_cases hi : i = obtainAt
  · subst hi
    rw [Tracker.call_obtain]
    exact ⟨fun _ _ => rfl, hfg⟩
  · have huse : ¬(Tracker.isRecycleCall kind site = true ∧ args = [.tracked]) := by
      rintro ⟨hsite, rfl⟩
      rw [recycled_of_givesBack hexecute
        ⟨hi, site, rfl, hsite, Frame.args?_of_popN hcount hpop⟩] at hunreleased
      cases hunreleased
    rw [Tracker.call_use hi huse]
    refine ⟨?_, hfg⟩
    intro _ hyield
    rw [decide_eq_false hi, Bool.false_or, Bool.and_eq_true, decide_eq_true_eq] at hyield
    obtain ⟨hsite, rfl⟩ := hyield
    cases hargs with
    | cons hhead htail =>
      cases htail
      exact absurd ⟨hsite, by rw [hhead rfl]⟩ huse

/-- Where a path can be read the tracker can be run; it records a release, or marks whatever the
reading follows. -/
theorem runs_of_reads (h : Reads (Tracker.isRecycleCall kind) obtainAt m p i g) :
    ∃ e f, (tracker kind obtainAt).along m .none p = .ok (e, f) ∧ g.SameShape m f ∧
      (e.recycled = true ∨ g.Related m MarksAll f) := by
  obtain ⟨hp, halong⟩ := h
  have hreads := provenance_keepsShape (Tracker.isRecycleCall kind) obtainAt
  have hruns := tracker_keepsShape kind obtainAt
  induction hp generalizing g with
  | nil =>
    obtain ⟨-, rfl⟩ := Prod.mk.inj (Except.ok.inj halong)
    exact ⟨.none, _, rfl, .new trivial, .inr (.new nofun)⟩
  | @normal p j k path edge ih =>
    obtain ⟨_, g₁, instr, hprefix, hcode, hexecute⟩ := Interpreter.along_normal_eq_ok halong
    obtain ⟨e₁, f₁, halong₁, hshape, hmarks⟩ := ih hprefix
    obtain ⟨⟨e', f'⟩, hexecute', hshape'⟩ :=
      (Interpreter.execute_sameShape (t := e₁) hreads hruns instr hshape).exists_ok hexecute
    refine ⟨e', f', (Interpreter.along_normal halong₁ hcode).trans hexecute', hshape', ?_⟩
    -- once a release is recorded nothing more is claimed about the values
    cases hrecycled : e'.recycled with
    | true => exact .inl rfl
    | false =>
      right
      rcases hmarks with hearlier | hmarks
      · rw [((tracker_accumulates kind obtainAt).execute hexecute').recycled hearlier] at hrecycled
        cases hrecycled
      · have hcall : ∀ site argCount, instr = .invoke site → site.argCount? = some argCount →
            (provenanceThrough (Tracker.isRecycleCall kind) obtainAt).CallsAlike m
              (tracker kind obtainAt) MarksAll () e₁ j site argCount g₁ f₁ := by
          rintro site argCount rfl hcount
          exact reading_callsAlike hcount hexecute' hrecycled
        obtain ⟨b, hb, hrelated⟩ :=
          (Interpreter.execute_alike instr nofun hcall hmarks).exists_ok hexecute
        obtain rfl := Except.ok.inj (hexecute'.symm.trans hb)
        exact hrelated
  | @caught p j handler path covers ih =>
    obtain ⟨g₁, hprefix, hentry⟩ := Interpreter.along_caught_eq_ok halong
    obtain ⟨e₁, f₁, halong₁, hshape, hmarks⟩ := ih hprefix
    obtain ⟨f', hentry', hshape'⟩ := (Interpreter.handlerEntry_alike (J := tracker kind obtainAt)
      (t := e₁) trivial hshape).exists_ok hentry
    refine ⟨e₁, f', Interpreter.along_caught halong₁ hentry', hshape', ?_⟩
    rcases hmarks with hearlier | hmarks
    · exact .inl hearlier
    · obtain ⟨f'', hentry'', hmarks'⟩ := (Interpreter.handlerEntry_alike
        (J := tracker kind obtainAt) (t := e₁) nofun hmarks).exists_ok hentry
      obtain rfl := Except.ok.inj (hentry'.symm.trans hentry'')
      exact .inr hmarks'

/-- If the reading of a path gives the instance back at `i`, then the run along the path has
recorded a release when it leaves `i`. -/
theorem recycled_after (h : Reads (Tracker.isRecycleCall kind) obtainAt m p i g)
    (hg : f.SameShape m g) (hcode : m.code[i]? = some instr)
    (hgives : GivesBack kind obtainAt i instr g true)
    (hexecute : (tracker kind obtainAt).execute e i instr f = .ok (e', f')) (k : Nat) :
    ∃ e₁ f₁, (tracker kind obtainAt).along m .none (p ++ [⟨i, k, false⟩]) = .ok (e₁, f₁) ∧
      e₁.recycled = true := by
  have hshape := tracker_keepsShape kind obtainAt
  obtain ⟨e₀, f₀, halong, hg₀, hmarks⟩ := runs_of_reads h
  obtain ⟨⟨e₁, f₁⟩, hexecute₁, -⟩ :=
    (Interpreter.execute_sameShape (t := e₀) hshape hshape instr (hg.trans hg₀)).exists_ok hexecute
  refine ⟨e₁, f₁, (Interpreter.along_normal halong hcode).trans hexecute₁, ?_⟩
  rcases hmarks with hearlier | hmarks
  · exact ((tracker_accumulates kind obtainAt).execute hexecute₁).recycled hearlier
  · obtain ⟨hi, site, rfl, hsite, hargs⟩ := hgives
    obtain ⟨args, hargs', hmarked⟩ := hmarks.args? hargs
    obtain ⟨v, hv, rfl⟩ := Frame.singleton_of_forall₂ hmarked
    obtain rfl : v = .tracked := hv rfl
    exact recycled_of_givesBack hexecute₁ ⟨hi, site, rfl, hsite, hargs'⟩

/-! ## Marked places -/

/-- The frame is realised, and where it marks a place as released two paths meet at a release
and go on to a frame with the instance in this place. -/
structure Suspected (kind : ResourceKind) (obtainAt : Nat) (m : Method) (i : Nat)
    (f : Frame Ownership) : Prop where
  realised : Realised (Tracker.isRecycleCall kind) obtainAt m i f
  released : ∀ q, f.value? q = some .released →
    ∃ g, ReleasedBefore kind obtainAt m i g ∧ f.SameShape m g ∧ g.value? q = some true

namespace Suspected

theorem entry : Suspected kind obtainAt m 0 (Frame.new m.maxLocals m.maxStack .unknown) := by
  refine ⟨.entry, ?_⟩
  intro q hq
  cases Frame.value?_new hq

theorem successor (h : Suspected kind obtainAt m i f) (hcode : m.code[i]? = some instr)
    (hexecute : (tracker kind obtainAt).execute e i instr f = .ok (e', f'))
    (hk : k ∈ m.successors i) : Suspected kind obtainAt m k f' := by
  have hhands : ∀ site, instr = .invoke site → GivesBack kind obtainAt i instr f .tracked →
      Tracker.isRecycleCall kind site = true := fun _ hsite hgives => hgives.isRecycleCall hsite
  refine ⟨h.realised.successor hcode hhands hexecute hk, ?_⟩
  intro q hq
  obtain ⟨n, hn, hvalues⟩ := tracker_values h.realised.sameShape hexecute
  obtain ⟨o, ho, hov⟩ := hvalues.flip.value? hq
  rcases hov.of_released with ⟨source, rfl, hsource⟩ | hgives
  · obtain ⟨g, hbefore, hg, htrue⟩ := h.released source hsource
    obtain ⟨g', hg', hread⟩ :=
      provenance_values (Tracker.isRecycleCall kind) obtainAt hg hn
    obtain ⟨b, hb, hob⟩ := hread.value? ho
    obtain rfl : true = b := Option.some.inj (htrue.symm.trans hob)
    exact ⟨g', hbefore.successor hcode hg' hk, hvalues.flip.trans hread, hb⟩
  · -- the instance is given back here, on one path through the argument of the call
    obtain ⟨first, g₁, hfirst, hg₁, hgives₁⟩ := h.realised.givesBack rfl hgives
    have hreleased := recycled_after hfirst hg₁ hcode hgives₁ hexecute k
    obtain ⟨second, g₂, hsecond, hg₂, htrue⟩ :=
      h.realised.source (h.realised.yields hhands) hov rfl
    obtain ⟨g', hg', hread⟩ :=
      provenance_values (Tracker.isRecycleCall kind) obtainAt hg₂ hn
    obtain ⟨b, hb, hob⟩ := hread.value? ho
    rw [htrue b hob] at hb
    obtain ⟨hi, site, rfl, hsite, -⟩ := hgives
    exact ⟨g', ⟨i, k, first, second, [], ⟨hi, site, hcode, hsite⟩, hfirst.path, hsecond.path,
      .normal .nil hk, hreleased, (hsecond.successor hcode hg' hk).along⟩,
      hvalues.flip.trans hread, hb⟩

theorem handler {handler : Handler} (h : Suspected kind obtainAt m i f)
    (hmem : handler ∈ m.handlersCovering i)
    (hentry : (tracker kind obtainAt).handlerEntry e f = .ok f') :
    Suspected kind obtainAt m handler.target f' := by
  refine ⟨h.realised.handler hmem hentry, ?_⟩
  intro q hq
  obtain ⟨n, hn, hvalues⟩ := tracker_entry_values h.realised.sameShape hentry
  obtain ⟨o, ho, hov⟩ := hvalues.flip.value? hq
  rcases hov.of_released with ⟨source, rfl, hsource⟩ | hfalse
  · obtain ⟨g, hbefore, hg, htrue⟩ := h.released source hsource
    obtain ⟨g', hg', hread⟩ :=
      provenance_entry_values (Tracker.isRecycleCall kind) obtainAt hg hn
    obtain ⟨b, hb, hob⟩ := hread.value? ho
    obtain rfl : true = b := Option.some.inj (htrue.symm.trans hob)
    exact ⟨g', hbefore.handler hmem hg', hvalues.flip.trans hread, hb⟩
  · exact hfalse.elim

theorem merged (h : Suspected kind obtainAt m i f) (h' : Suspected kind obtainAt m i f')
    (hheight : f.stack.length = f'.stack.length) : Suspected kind obtainAt m i (f.merged f') := by
  have hshape := h.realised.sameShape.of_height h'.realised.sameShape hheight
  have hmerged := h.realised.sameShape.merged f'
  refine ⟨h.realised.merged h'.realised hheight, ?_⟩
  intro q hq
  obtain ⟨b, c, hb, hc, hbc⟩ := Frame.value?_merged hshape hq
  -- a merged value is released only if one of the two is
  have hsource : b = .released ∨ c = .released := by
    revert hbc
    cases b <;> cases c <;> decide
  rcases hsource with rfl | rfl
  · obtain ⟨g, hbefore, hg, htrue⟩ := h.released q hb
    exact ⟨g, hbefore, hmerged.trans hg, htrue⟩
  · obtain ⟨g, hbefore, hg, htrue⟩ := h'.released q hc
    exact ⟨g, hbefore, (hmerged.trans hshape).trans hg, htrue⟩

end Suspected

/-! ## Reports -/

/-- Call `c` takes the instance on a path that meets, at a release before `c`, another path which
has given the instance back. -/
def SharedUse (kind : ResourceKind) (obtainAt : Nat) (m : Method) (c : Nat) : Prop :=
  c ≠ obtainAt ∧ ∃ site g args, m.code[c]? = some (.invoke site) ∧
    ReleasedBefore kind obtainAt m c g ∧ g.args? site = some args ∧ true ∈ args

theorem Suspected.sharedUse (h : Suspected kind obtainAt m i f) (hcode : m.code[i]? = some instr)
    (hexecute : (tracker kind obtainAt).execute e i instr f = .ok (e', f')) {c : Nat}
    (hc : c ∈ e'.doubleReleases) : c ∈ e.doubleReleases ∨ SharedUse kind obtainAt m c := by
  rcases (mem_doubleReleases_execute hexecute).1 hc with
    hc | ⟨rfl, hi, site, args, j, rfl, hargs, hj, -⟩
  · exact .inl hc
  · right
    obtain ⟨place, hplace, hshift⟩ := Frame.args?_place hargs hj
    obtain ⟨g', hbefore, hg', htrue⟩ := h.released (.entry place) hplace
    obtain ⟨args', hargs', -, hj'⟩ := hshift hg' htrue
    exact ⟨hi, site, g', args', hcode, hbefore, hargs', List.mem_of_getElem? hj'⟩

/-- Whenever the check of a method succeeds, every reported call takes the instance on some path,
and comes after a release at which that path meets one that has given the instance back. -/
theorem sharedUse_of_reported {report : FlowReport}
    (h : checkMethodFlow m obtainAt kind = .ok report) :
    ∀ c ∈ report.doubleReleases, SharedUse kind obtainAt m c := by
  obtain ⟨a, ha, rfl⟩ := checkMethodFlow_eq_ok.1 h
  have hkept : Worklist.Kept (tracker kind obtainAt) m Evidence.Within a.record
      (Suspected kind obtainAt m)
      (fun e => ∀ c ∈ e.doubleReleases, SharedUse kind obtainAt m c) := by
    refine ⟨?_, ?_, fun _ _ _ => Suspected.merged⟩
    · intro i instr e e' f f' hcode hf he hexecute _
      refine ⟨?_, fun k hk => hf.successor hcode hexecute hk⟩
      intro c hc
      rcases hf.sharedUse hcode hexecute hc with hold | hnew
      · exact he c hold
      · exact hnew
    · intro i handler e f entry hf _ hmem hentry
      exact hf.handler hmem hentry
  exact ((analyzes_iff.2 ha).frames (tracker_accumulates kind obtainAt) hkept .entry
    fun _ => nofun).2

/-! ### A report without a use after release -/

/-- A parcel and a null below or above it, depending on the branch. Both are released. -/
def swapOnOneBranch : Method :=
  plainMethod 0 [obtainParcel, .const .null, .const (.int 0), .ifZero 5, .swap, recycleParcel,
    recycleParcel, .ret]

set_option maxRecDepth 10000 in
theorem track_swapOnOneBranch : ∃ a,
    trackInstance swapOnOneBranch 0 ResourceTable.parcel = .ok a ∧
      a.record = ⟨true, [], [6]⟩ :=
  analyze_of_runFor 20 _ (by decide) (by decide) (by decide)

/-- All that the tracker comes to along single paths. -/
def swapStates : List (Nat × Evidence × Frame Ownership) :=
  [(0, .none, ⟨[], [], none⟩), (1, .none, ⟨[], [.tracked], none⟩),
    (2, .none, ⟨[], [.unknown, .tracked], none⟩),
    (3, .none, ⟨[], [.unknown, .unknown, .tracked], none⟩),
    (4, .none, ⟨[], [.unknown, .tracked], none⟩), (5, .none, ⟨[], [.unknown, .tracked], none⟩),
    (5, .none, ⟨[], [.tracked, .unknown], none⟩), (6, .none, ⟨[], [.tracked], none⟩),
    (6, ⟨true, [], []⟩, ⟨[], [.unknown], none⟩), (7, ⟨true, [], []⟩, ⟨[], [], none⟩)]

set_option maxRecDepth 10000 in
theorem mem_swapStates (h : Runs ResourceTable.parcel 0 swapOnOneBranch p i e f) :
    (i, e, f) ∈ swapStates := by
  have hclosed : ∀ x ∈ swapStates, ∀ k ∈ swapOnOneBranch.successors x.1,
      ∀ instr ∈ swapOnOneBranch.code[x.1]?,
        ∀ y ∈ ((tracker ResourceTable.parcel 0).execute x.2.1 x.1 instr x.2.2).toOption,
          (k, y.1, y.2) ∈ swapStates := by decide
  refine Interpreter.along_induction (P := fun i e f => (i, e, f) ∈ swapStates) (by decide) ?_ ?_
    h.path h.along
  · intro j k t t' f f' instr hf hcode hexecute hk
    exact hclosed _ hf k hk instr hcode (t', f') (by rw [hexecute]; rfl)
  · intro j handler t f f' _ hmem _
    exact absurd hmem List.not_mem_nil

set_option maxRecDepth 10000 in
/-- The second release is reported, although on each single path only one of the two releases
is handed the parcel. -/
theorem reported_without_use : ∃ report,
    checkMethodFlow swapOnOneBranch 0 ResourceTable.parcel = .ok report ∧
      6 ∈ report.doubleReleases ∧ ∀ p e f, Path swapOnOneBranch 0 p 6 →
        (tracker ResourceTable.parcel 0).along swapOnOneBranch .none p = .ok (e, f) →
          ∀ site args, swapOnOneBranch.code[6]? = some (.invoke site) →
            f.args? site = some args → Ownership.released ∉ args := by
  obtain ⟨a, ha, hrecord⟩ := track_swapOnOneBranch
  refine ⟨_, checkMethodFlow_eq_ok.2 ⟨a, ha, rfl⟩, ?_, ?_⟩
  · show 6 ∈ a.record.doubleReleases
    rw [hrecord]
    decide
  · intro p e f hp halong site args hcode hargs hreleased
    have hstate := mem_swapStates ⟨hp, halong⟩
    have hnone : ∀ x ∈ swapStates, x.1 = 6 → ∀ args ∈ x.2.2.args? site,
        Ownership.released ∉ args := by
      obtain rfl := Instruction.invoke.inj (Option.some.inj hcode)
      decide
    exact hnone _ hstate rfl args hargs hreleased

/-- The two branches meet at the first release, and the reported one follows. -/
theorem sharedUse_of_reported_of_swap : ∃ report,
    checkMethodFlow swapOnOneBranch 0 ResourceTable.parcel = .ok report ∧
      SharedUse ResourceTable.parcel 0 swapOnOneBranch 6 := by
  obtain ⟨a, ha, hrecord⟩ := track_swapOnOneBranch
  have hreport := checkMethodFlow_eq_ok.2 ⟨a, ha, rfl⟩
  refine ⟨_, hreport, sharedUse_of_reported hreport 6 ?_⟩
  show 6 ∈ a.record.doubleReleases
  rw [hrecord]
  decide

end PoolLint

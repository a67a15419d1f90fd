import PoolLint.Proofs.Ownership.LeakVerdict

/-!
# Uses after a release are reported

The tracker is run along a single path and compared with the frame table. Values of the path are
never further advanced than those of the table (`Behind`), with one exception: where a release
finds the instance already released in the merged frame, it does not act there, so aliases that
the path has released by then are still unreleased in the table. But such a release is reported
itself. Hence a path with a use after release never goes without a report
(`use_after_release_reported`), though it may be an earlier release on the path that is named.
-/

namespace PoolLint

open PoolLint.Bytecode PoolLint.Flow

/-- The tracker, run along the path alone, gets to `i` with this record and this frame. -/
structure Runs (kind : ResourceKind) (obtainAt : Nat) (m : Method) (p : List Hop) (i : Nat)
    (e : Evidence) (f : Frame Ownership) : Prop where
  path : Path m 0 p i
  along : (tracker kind obtainAt).along m .none p = .ok (e, f)

/-- A call, neither the one that obtains the instance nor known to leave it with its owner, has
a released value among its arguments. -/
def UsesReleasedAt (kind : ResourceKind) (obtainAt : Nat) (m : Method) (i : Nat)
    (f : Frame Ownership) : Prop :=
  i ≠ obtainAt ∧ ∃ site args, m.code[i]? = some (.invoke site) ∧
    kind.preservesIdentity site = false ∧ f.args? site = some args ∧ Ownership.released ∈ args

/-- On its way the path leaves `r` normally, where its run gives the instance back. -/
def ReleasedOn (kind : ResourceKind) (obtainAt : Nat) (m : Method) (p : List Hop) (r : Nat) :
    Prop :=
  ∃ before k rest e f instr, p = before ++ ⟨r, k, false⟩ :: rest ∧
    Runs kind obtainAt m before r e f ∧ m.code[r]? = some instr ∧
      GivesBack kind obtainAt r instr f .tracked

variable {kind : ResourceKind} {obtainAt i : Nat} {m : Method} {p : List Hop} {e : Evidence}
  {f g : Frame Ownership} {a : Analysis Ownership Evidence}

theorem ReleasedOn.append {r : Nat} (h : ReleasedOn kind obtainAt m p r) (q : List Hop) :
    ReleasedOn kind obtainAt m (p ++ q) r := by
  obtain ⟨before, k, rest, e, f, instr, rfl, hrest⟩ := h
  exact ⟨before, k, rest ++ q, e, f, instr, by rw [List.append_assoc, List.cons_append], hrest⟩

/-! ## Behind the table -/

/-- The first value is not further advanced than the second. -/
def Behind (v w : Ownership) : Prop :=
  v.level ≤ w.level

instance (v w : Ownership) : Decidable (Behind v w) :=
  inferInstanceAs (Decidable (v.level ≤ w.level))

namespace Behind

variable {v w : Ownership}

theorem markReleased (h : Behind v w) : Behind v (Tracker.markReleased w) := by
  revert h
  cases v <;> cases w <;> decide

theorem markReleased_both (h : Behind v w) :
    Behind (Tracker.markReleased v) (Tracker.markReleased w) := by
  revert h
  cases v <;> cases w <;> decide

theorem eq_released (h : Behind .released w) : w = .released := by
  revert h
  cases w <;> decide

theorem unknown : Behind .unknown w :=
  Nat.zero_le _

end Behind

theorem tracker_simulates (kind : ResourceKind) (obtainAt : Nat) :
    (tracker kind obtainAt).Simulates (tracker kind obtainAt) Behind := by
  refine ⟨fun _ _ => Nat.le_refl _, fun _ _ _ _ => Nat.le_refl _, ?_⟩
  intro u v v'
  cases u <;> cases v <;> cases v' <;> decide

/-- A release of the path keeps it behind the table unless the table reports it. -/
theorem release_behind {args : List Ownership} {site : CallSite} {u : Evidence}
    (hi : i ≠ obtainAt) (hsite : Tracker.isRecycleCall kind site = true)
    (hargs : List.Forall₂ Behind [.tracked] args) (hfg : f.Related m Behind g)
    (hunreported : i ∉ (Tracker.call kind obtainAt u i site args g).1.doubleReleases) :
    Behind .released (Tracker.call kind obtainAt u i site args g).2.1 ∧
      (f.map Tracker.markReleased).Related m Behind
        (Tracker.call kind obtainAt u i site args g).2.2 := by
  obtain ⟨v, hv, rfl⟩ := Frame.singleton_of_forall₂ hargs
  cases v with
  | unknown => exact absurd hv (by decide)
  | tracked =>
    rw [Tracker.call_release hi hsite]
    have hright : f.Related m (fun v w => Behind (Tracker.markReleased v) w)
        (g.map Tracker.markReleased) := hfg.map fun _ _ h => h.markReleased_both
    have hleft : (g.map Tracker.markReleased).Related m (fun w v => Behind v w)
        (f.map Tracker.markReleased) := hright.flip.map fun _ _ h => h
    exact ⟨Nat.le_refl _, hleft.flip⟩
  | released =>
    -- the table has the instance released already, so the call counts as a use
    refine (hunreported (Tracker.mem_doubleReleases_call.2 (.inr ⟨rfl, hi, 0, rfl, ?_⟩))).elim
    intro _ l hl
    exact absurd hl (Nat.not_lt_zero l)

/-- What a call of the table makes of its frame stays ahead of what a use leaves alone. -/
theorem use_behind {args : List Ownership} {site : CallSite} {u : Evidence}
    (hfg : f.Related m Behind g) :
    f.Related m Behind (Tracker.call kind obtainAt u i site args g).2.2 := by
  unfold Tracker.call
  split_ifs
  · exact hfg
  · exact hfg.map fun _ _ h => h.markReleased
  · exact hfg
  · exact hfg

/-- Calls keep the path behind the table, unless the path gives the instance back where the
table reports a use. -/
theorem tracker_callsAlike {site : CallSite} {argCount : Nat} {u u' : Evidence}
    {after : Frame Ownership} (hcount : site.argCount? = some argCount)
    (hexecute : (tracker kind obtainAt).execute u i (.invoke site) g = .ok (u', after))
    (hlate : GivesBack kind obtainAt i (.invoke site) f .tracked → i ∉ u'.doubleReleases) :
    (tracker kind obtainAt).CallsAlike m (tracker kind obtainAt) Behind e u i site argCount f
      g := by
  intro args f' args' g' hpop hpop' hargs hfg
  obtain ⟨_, _, _, hcount', hpop'', rfl⟩ := Interpreter.execute_invoke hexecute
  obtain rfl := Option.some.inj (hcount.symm.trans hcount')
  obtain ⟨rfl, rfl⟩ := Prod.mk.inj (Except.ok.inj (hpop'.symm.trans hpop''))
  show (_ → Behind (Tracker.call kind obtainAt e i site args f').2.1
      (Tracker.call kind obtainAt u i site args' g').2.1) ∧
    (Tracker.call kind obtainAt e i site args f').2.2.Related m Behind
      (Tracker.call kind obtainAt u i site args' g').2.2
  by_cases hi : i = obtainAt
  · subst hi
    rw [Tracker.call_obtain, Tracker.call_obtain]
    exact ⟨fun _ => Nat.le_refl _, hfg⟩
  · by_cases hrelease : Tracker.isRecycleCall kind site = true ∧ args = [.tracked]
    · obtain ⟨hsite, rfl⟩ := hrelease
      have hgives : GivesBack kind obtainAt i (.invoke site) f .tracked :=
        ⟨hi, site, rfl, hsite, Frame.args?_of_popN hcount hpop⟩
      obtain ⟨hresult, hframes⟩ := release_behind hi hsite hargs hfg (hlate hgives)
      rw [Tracker.call_release hi hsite]
      exact ⟨fun _ => hresult, hframes⟩
    · rw [Tracker.call_use hi hrelease]
      exact ⟨fun _ => .unknown, use_behind hfg⟩

/-! ## Runs along a path -/

/-- The run along any path succeeds. -/
theorem exists_runs (h : trackInstance m obtainAt kind = .ok a) (hp : Path m 0 p i) :
    ∃ e f, Runs kind obtainAt m p i e f := by
  -- success depends on shapes alone, so nothing need be said about values
  have hsim : (tracker kind obtainAt).Simulates (tracker kind obtainAt) fun _ _ => True :=
    ⟨fun _ _ => trivial, fun _ _ _ _ => trivial, fun _ _ _ _ _ => trivial⟩
  have hshape := tracker_keepsShape kind obtainAt
  obtain ⟨e, f, halong, -⟩ := covers_along (t := Evidence.none)
    (tracker_accumulates kind obtainAt) hshape h hsim
    (fun t u i site _ _ _ args f' args' g' _ _ _ hfg => ⟨fun _ => trivial,
      (((hshape m t i site args f' hfg.left).flip.trans hfg).trans
        (hshape m u i site args' g' hfg.right))⟩) hp
  exact ⟨e, f, hp, halong⟩

/-- Along any path either a release that is reported took place, or the path is still behind the
table. -/
theorem reported_or_behind (h : trackInstance m obtainAt kind = .ok a)
    (hruns : Runs kind obtainAt m p i e f) :
    (∃ r, ReleasedOn kind obtainAt m p r ∧ r ∈ a.record.doubleReleases) ∨
      a.Covers m Behind i f := by
  obtain ⟨hp, halong⟩ := hruns
  have hI := tracker_accumulates kind obtainAt
  have hshape := tracker_keepsShape kind obtainAt
  have hsim := tracker_simulates kind obtainAt
  induction hp generalizing e f with
  | nil =>
    obtain ⟨rfl, rfl⟩ := Prod.mk.inj (Except.ok.inj halong)
    exact .inr (covers_entry hI hshape h hsim)
  | @normal p j k path edge ih =>
    obtain ⟨e₁, f₁, instr, hprefix, hcode, hexecute⟩ := Interpreter.along_normal_eq_ok halong
    -- the path may lose the table only at a release that the table takes for a use
    by_cases hlate : GivesBack kind obtainAt j instr f₁ .tracked ∧ j ∈ a.record.doubleReleases
    · exact .inl ⟨j, ⟨p, k, [], e₁, f₁, instr, rfl, ⟨path, hprefix⟩, hcode, hlate.1⟩, hlate.2⟩
    · rcases ih hprefix with ⟨r, hr, hreported⟩ | hcovers
      · exact .inl ⟨r, hr.append _, hreported⟩
      · right
        obtain ⟨instr', e', f', hcode', hexecute', hsuccessors⟩ :=
          covers_successor (t := e₁) hI hshape h hsim hcovers
            fun site argCount g u u' after hsite hcount _ _ htable hwithin =>
              tracker_callsAlike hcount htable fun hgives hreported => hlate
                ⟨Option.some.inj (hsite.symm.trans hcode) ▸ hgives,
                  hwithin.doubleReleases j hreported⟩
        obtain rfl : instr' = instr := Option.some.inj (hcode'.symm.trans hcode)
        obtain ⟨rfl, rfl⟩ := Prod.mk.inj (Except.ok.inj (hexecute'.symm.trans hexecute))
        exact hsuccessors k edge
  | caught path covers ih =>
    obtain ⟨f₁, hprefix, hentry⟩ := Interpreter.along_caught_eq_ok halong
    rcases ih hprefix with ⟨r, hr, hreported⟩ | hcovers
    · exact .inl ⟨r, hr.append _, hreported⟩
    · right
      obtain ⟨entry, hentry', hentered⟩ :=
        covers_handler (t := e) hI hshape h hsim hcovers covers
      obtain rfl := Except.ok.inj (hentry'.symm.trans hentry)
      exact hentered

/-- A use that the table sees is reported. -/
theorem reported_of_covers (h : trackInstance m obtainAt kind = .ok a)
    (hcovers : a.Covers m Behind i f) (huse : UsesReleasedAt kind obtainAt m i f) :
    i ∈ a.record.doubleReleases := by
  obtain ⟨g, hg, hfg⟩ := hcovers
  obtain ⟨hi, site, args, hcode, hpreserves, hargs, hreleased⟩ := huse
  obtain ⟨args', hargs', hbehind⟩ := hfg.args? hargs
  -- the table is ahead of the path, and nothing is ahead of a released value but another one
  obtain ⟨k, hk⟩ := List.mem_iff_getElem?.1 hreleased
  obtain ⟨v, hv, hvk⟩ := Frame.getElem?_of_forall₂ hbehind hk
  rw [hvk.eq_released] at hv
  refine mem_doubleReleases_of_notesUse h hg hcode ((notesUse_invoke hargs').2 ⟨hi, k, hv, ?_⟩)
  rw [hpreserves]
  exact nofun

/-- Whenever the check of a method succeeds, the tracker can be run along every path alone; and
if a call on the path uses a released value, then this call is reported, or a release that the
path has made before. -/
theorem use_after_release_reported {report : FlowReport}
    (h : checkMethodFlow m obtainAt kind = .ok report) :
    (∀ p i, Path m 0 p i → ∃ e f, Runs kind obtainAt m p i e f) ∧
      ∀ p c e f, Runs kind obtainAt m p c e f → UsesReleasedAt kind obtainAt m c f →
        c ∈ report.doubleReleases ∨
          ∃ r, ReleasedOn kind obtainAt m p r ∧ r ∈ report.doubleReleases := by
  obtain ⟨a, ha, rfl⟩ := checkMethodFlow_eq_ok.1 h
  refine ⟨fun p i => exists_runs ha, ?_⟩
  intro p c e f hruns huse
  rcases reported_or_behind ha hruns with hreported | hcovers
  · exact .inr hreported
  · exact .inl (reported_of_covers ha hcovers huse)

/-! ### A use that goes unreported itself -/

/-- One branch gives the parcel back, the other one stores a second reference to it. Where they
meet the parcel is released once more, and then the second reference is. -/
def aliasReleasedLast : Method :=
  plainMethod 1 [obtainParcel, .const (.int 0), .ifZero 6, .dup, recycleParcel, .goto 8, .dup,
    .store 0, recycleParcel, .load 0, recycleParcel, .ret]

set_option maxRecDepth 10000 in
theorem track_aliasReleasedLast : ∃ a,
    trackInstance aliasReleasedLast 0 ResourceTable.parcel = .ok a ∧
      a.record = ⟨true, [], [8]⟩ :=
  analyze_of_runFor 30 _ (by decide) (by decide) (by decide)

/-- The path over the second branch. -/
def aliasPath : List Hop :=
  walk 0 [1, 2, 6, 7, 8, 9, 10]

set_option maxRecDepth 10000 in
theorem runs_aliasPath : Runs ResourceTable.parcel 0 aliasReleasedLast aliasPath 10
    ⟨true, [], []⟩ ⟨[.released], [.released], none⟩ :=
  ⟨path_walk (by decide), by decide⟩

theorem uses_aliasPath : UsesReleasedAt ResourceTable.parcel 0 aliasReleasedLast 10
    ⟨[.released], [.released], none⟩ :=
  ⟨by decide, _, [.released], rfl, by decide, by decide, by decide⟩

/-- The second release on the path is not reported: the first one found the parcel released in
the merged frame, and so did not mark the reference in the slot. -/
theorem use_after_release_unreported : ∃ report,
    checkMethodFlow aliasReleasedLast 0 ResourceTable.parcel = .ok report ∧
      Path aliasReleasedLast 0 aliasPath 10 ∧
      (tracker ResourceTable.parcel 0).along aliasReleasedLast .none aliasPath =
        .ok (⟨true, [], []⟩, ⟨[.released], [.released], none⟩) ∧
      UsesReleasedAt ResourceTable.parcel 0 aliasReleasedLast 10
        ⟨[.released], [.released], none⟩ ∧
      10 ∉ report.doubleReleases := by
  obtain ⟨a, ha, hrecord⟩ := track_aliasReleasedLast
  refine ⟨_, checkMethodFlow_eq_ok.2 ⟨a, ha, rfl⟩, runs_aliasPath.path, runs_aliasPath.along,
    uses_aliasPath, ?_⟩
  show 10 ∉ a.record.doubleReleases
  rw [hrecord]
  decide

/-- But the first release on the path is reported. -/
theorem use_after_release_reported_of_alias : ∃ report,
    checkMethodFlow aliasReleasedLast 0 ResourceTable.parcel = .ok report ∧
      ∃ r, ReleasedOn ResourceTable.parcel 0 aliasReleasedLast aliasPath r ∧
        r ∈ report.doubleReleases := by
  obtain ⟨a, ha, hrecord⟩ := track_aliasReleasedLast
  have hreport := checkMethodFlow_eq_ok.2 ⟨a, ha, rfl⟩
  refine ⟨_, hreport, ?_⟩
  rcases (use_after_release_reported hreport).2 _ _ _ _ runs_aliasPath uses_aliasPath with
    hreported | hearlier
  · have hreported' : 10 ∈ a.record.doubleReleases := hreported
    rw [hrecord] at hreported'
    exact absurd hreported' (by decide)
  · exact hearlier

end PoolLint

import PoolLint.Proofs.Ownership.Holders

/-!
# Escapes are exact

Escapes are recorded from frames that still grow, and they are never taken back. For a kind whose
release yields no result they are nevertheless those of single paths (`escapes_exact`).

A value that is stored or returned counts in the same way whether it is tracked or released, so
there the record and the paths agree. An argument of a call may climb from tracked to released
between two visits of the call, and which of the two sets the call gets into depends on the order
of visits. What does not depend on it is that the call gets into one of them if some path passes
the instance on there, and that no path is invented for a recorded escape.
-/

namespace PoolLint

open PoolLint.Bytecode PoolLint.Flow

variable {kind : ResourceKind} {obtainAt i : Nat} {m : Method} {p : List Hop} {g : Frame Bool}
  {a : Analysis Ownership Evidence}

/-! ## From the record to paths -/

/-- A recorded escape is one on some path. -/
theorem leavesAt_of_mem_escapes (hvoid : [')', 'V'] <:+ kind.release.desc.toList)
    (h : trackInstance m obtainAt kind = .ok a) (hi : i ∈ a.record.escapes) :
    ∃ p g, Path m 0 p i ∧ (provenance obtainAt).along m () p = .ok ((), g) ∧
      LeavesAt kind obtainAt m i g := by
  have hexplained := (realised_table (Q := fun e => ∀ j ∈ e.escapes, ∃ p g,
    Reads (Tracker.isRecycleCall kind) obtainAt m p j g ∧ LeavesAt kind obtainAt m j g) h
    (fun _ => nofun) ?_).2
  · obtain ⟨p, g, hreads, hleaves⟩ := hexplained i hi
    exact ⟨p, g, hreads.path, hreads.along_provenance hvoid, hleaves⟩
  · intro i instr e e' f f' hcode hf he hexecute j hj
    rcases (mem_escapes_execute hexecute).1 hj with hj | ⟨rfl, hnotes⟩
    · exact he j hj
    · exact leavesAt_of_notesEscape hf hcode hnotes

/-! ## From paths to the record -/

/-- A path whose reading stores or returns the instance has its escape recorded. -/
theorem mem_escapes_of_handsOverAt (h : trackInstance m obtainAt kind = .ok a)
    (hcovers : a.Covers m Follows i g) (hhands : HandsOverAt m i g) : i ∈ a.record.escapes := by
  obtain ⟨f, hf, hrelated⟩ := hcovers
  obtain ⟨instr, hcode, hnotes⟩ := notesEscape_of_handsOverAt hrelated hhands
  exact mem_escapes_of_notesEscape h hf hcode hnotes

/-- A path whose reading passes the instance on has its call recorded, in one way or the other. -/
theorem recorded_of_passesOnAt (h : trackInstance m obtainAt kind = .ok a)
    (hcovers : a.Covers m Follows i g) (hpasses : PassesOnAt kind obtainAt m i g) :
    i ∈ a.record.escapes ∨ i ∈ a.record.doubleReleases := by
  obtain ⟨f, hf, hrelated⟩ := hcovers
  obtain ⟨instr, hcode, hnotes | hnotes⟩ := noted_of_passesOnAt hrelated hpasses
  · exact .inl (mem_escapes_of_notesEscape h hf hcode hnotes)
  · exact .inr (mem_doubleReleases_of_notesUse h hf hcode hnotes)

/-- Whenever the check of a method succeeds and the release of the kind yields no result, every
path can be read, and the recorded escapes are these. An instruction that stores a value into the
heap or returns it is recorded exactly if the value is the instance on some path. A call is recorded
only if some path passes the instance on there, as an argument other than the receiver, to a callee
not known to leave it with its owner; and every such call is recorded as an escape or as a use after
release. Thus the verdict is an escape only if the instance leaves the method on some path. -/
theorem escapes_exact (hvoid : [')', 'V'] <:+ kind.release.desc.toList) {report : FlowReport}
    (h : checkMethodFlow m obtainAt kind = .ok report) :
    ∃ a, trackInstance m obtainAt kind = .ok a ∧
      (∀ p i, Path m 0 p i → ∃ g, (provenance obtainAt).along m () p = .ok ((), g)) ∧
      (∀ i instr, m.code[i]? = some instr → instr.handsOver = true →
        (i ∈ a.record.escapes ↔ ∃ p g, Path m 0 p i ∧
          (provenance obtainAt).along m () p = .ok ((), g) ∧ g.value? (.entry 0) = some true)) ∧
      (∀ i site, m.code[i]? = some (.invoke site) → i ∈ a.record.escapes → ∃ p g, Path m 0 p i ∧
        (provenance obtainAt).along m () p = .ok ((), g) ∧ PassesOnAt kind obtainAt m i g) ∧
      (∀ p i g, Path m 0 p i → (provenance obtainAt).along m () p = .ok ((), g) →
        PassesOnAt kind obtainAt m i g → i ∈ a.record.escapes ∨ i ∈ report.doubleReleases) ∧
      (report.verdict = .escaped → ∃ p i g, Path m 0 p i ∧
        (provenance obtainAt).along m () p = .ok ((), g) ∧ LeavesAt kind obtainAt m i g) := by
  obtain ⟨a, ha, rfl⟩ := checkMethodFlow_eq_ok.1 h
  refine ⟨a, ha, ?_, ?_, ?_, ?_, ?_⟩
  · intro p i hp
    obtain ⟨g, halong, -⟩ := provenance_covered ha hp
    exact ⟨g, halong⟩
  · intro i instr hcode hhands
    constructor
    · intro hi
      obtain ⟨p, g, hp, halong, ⟨-, -, -, htop⟩ | ⟨-, site, -, -, hcode', -⟩⟩ :=
        leavesAt_of_mem_escapes hvoid ha hi
      · exact ⟨p, g, hp, halong, htop⟩
      · obtain rfl := Option.some.inj (hcode.symm.trans hcode')
        cases hhands
    · rintro ⟨p, g, hp, halong, htop⟩
      exact mem_escapes_of_handsOverAt ha (provenance_covers ha hp halong)
        ⟨instr, hcode, hhands, htop⟩
  · intro i site hcode hi
    obtain ⟨p, g, hp, halong, ⟨instr, hcode', hhands, -⟩ | hpasses⟩ :=
      leavesAt_of_mem_escapes hvoid ha hi
    · obtain rfl := Option.some.inj (hcode.symm.trans hcode')
      cases hhands
    · exact ⟨p, g, hp, halong, hpasses⟩
  · intro p i g hp halong hpasses
    exact recorded_of_passesOnAt ha (provenance_covers ha hp halong) hpasses
  · intro hverdict
    obtain ⟨i, hi⟩ := List.exists_mem_of_ne_nil _ (Evidence.verdict_eq_escaped.1 hverdict)
    obtain ⟨p, g, hp, halong, hleaves⟩ := leavesAt_of_mem_escapes hvoid ha hi
    exact ⟨p, i, g, hp, halong, hleaves⟩

/-! ### A parcel that leaves in three ways -/

/-- `Log.write(parcel)` -/
def writeParcel : Instruction :=
  .invoke ⟨.static, "app/Log", "write", "(Landroid/os/Parcel;)V"⟩

/-- A parcel is written before and after its release, and returned. -/
def writeAndReturn : Method :=
  plainMethod 0 [obtainParcel, .dup, writeParcel, .dup, recycleParcel, .dup, writeParcel,
    .retValue]

set_option maxRecDepth 10000 in
/-- The first write and the return are escapes of the only path there is. The second write is a
use after release. -/
theorem escapes_exact_of_write : ∃ report,
    checkMethodFlow writeAndReturn 0 ResourceTable.parcel = .ok report ∧
      (∃ p g, Path writeAndReturn 0 p 2 ∧ (provenance 0).along writeAndReturn () p = .ok ((), g) ∧
        PassesOnAt ResourceTable.parcel 0 writeAndReturn 2 g) ∧
      6 ∈ report.doubleReleases ∧
      ∃ p g, Path writeAndReturn 0 p 7 ∧ (provenance 0).along writeAndReturn () p = .ok ((), g) ∧
        g.value? (.entry 0) = some true := by
  obtain ⟨a, ha, hrecord⟩ : ∃ a, trackInstance writeAndReturn 0 ResourceTable.parcel = .ok a ∧
      a.record = ⟨true, [2, 7], [6]⟩ :=
    analyze_of_runFor 20 _ (by decide) (by decide) (by decide)
  have hreport := checkMethodFlow_eq_ok.2 ⟨a, ha, rfl⟩
  obtain ⟨a', ha', -, hheap, hcalls, hnoted, -⟩ := escapes_exact (by decide) hreport
  obtain rfl : a = a' := Except.ok.inj (ha.symm.trans ha')
  have hp : Path writeAndReturn 0 (walk 0 [1, 2, 3, 4, 5, 6]) 6 := path_walk (by decide)
  have hpasses : PassesOnAt ResourceTable.parcel 0 writeAndReturn 6 ⟨[], [true, true], none⟩ :=
    ⟨by decide, _, [true], 0, rfl, by decide, by decide, rfl, by decide⟩
  refine ⟨_, hreport, hcalls 2 _ rfl ?_, ?_, (hheap 7 _ rfl rfl).1 ?_⟩
  · rw [hrecord]
    decide
  · have hno : 6 ∉ a.record.escapes := by
      rw [hrecord]
      decide
    exact (hnoted _ 6 _ hp rfl hpasses).resolve_left hno
  · rw [hrecord]
    decide

end PoolLint

import PoolLint.Proofs.Check.MethodOrder
import PoolLint.Proofs.Ownership.LeakVerdict

/-!
# Leaks that no execution has

The precise check is made for every instruction that obtains an instance, and its verdict is a leak
unless something else is recorded. Where control never gets nothing is recorded. So a leak is
reported at every such instruction of a method that can be analyzed, even if all paths from there
give the instance back (`leak_reported_unreached`). `leaks_where_reached` states what does hold: a
leak at an instruction that control can reach has an execution behind it, since no path that goes
through it gives the instance back or takes it out of the method.
-/

namespace PoolLint

open PoolLint.Bytecode PoolLint.Flow

/-! ## What paths do with an instance -/

/-- No path of the method gives back the instance that is obtained at `i`, and none takes it out of
the method. -/
def NeverReturned (kind : ResourceKind) (i : Nat) (m : Method) : Prop :=
  ∀ p k g, Path m 0 p k → (provenance i).along m () p = .ok ((), g) →
    ¬ReleasesAt kind i m k g ∧ ¬LeavesAt kind i m k g

/-- Every path from `k`, where these values are the instance, comes to a release of it. -/
inductive GivesBackFrom (kind : ResourceKind) (i : Nat) (m : Method) : Nat → Frame Bool → Prop
  | now {k : Nat} {g : Frame Bool} (releases : ReleasesAt kind i m k g) :
      GivesBackFrom kind i m k g
  | later {k : Nat} {g : Frame Bool} {instr : Instruction} (code : m.code[k]? = some instr)
      (goesOn : m.successors k ≠ [])
      (normal : ∀ g', (provenance i).execute () k instr g = .ok ((), g') →
        ∀ l ∈ m.successors k, GivesBackFrom kind i m l g')
      (caught : ∀ g', (provenance i).handlerEntry () g = .ok g' →
        ∀ h ∈ m.handlersCovering k, GivesBackFrom kind i m h.target g') :
      GivesBackFrom kind i m k g

/-- Every path from the call that obtains the instance at `i` comes to a release of it, if the call
is made with these values. -/
def GivesBackAfter (kind : ResourceKind) (i : Nat) (m : Method) (g : Frame Bool) : Prop :=
  ∀ instr g', m.code[i]? = some instr → (provenance i).execute () i instr g = .ok ((), g') →
    ∀ k ∈ m.successors i, GivesBackFrom kind i m k g'

variable {kind : ResourceKind} {i k : Nat} {m : Method} {p : List Hop} {g : Frame Bool}
  {a : Analysis Ownership Evidence}

/-- The verdict is a leak if no path gives the instance back or takes it out, and only then. -/
theorem verdict_eq_leaked_iff (h : trackInstance m i kind = .ok a) :
    a.record.verdict = .leaked ↔ NeverReturned kind i m := by
  rw [Evidence.verdict_eq_leaked]
  constructor
  · rintro ⟨hrecycled, hescapes⟩ p k g hp halong
    have hcovers := provenance_covers h hp halong
    have hreleased : a.record.recycled ≠ true := by rw [hrecycled]; exact Bool.false_ne_true
    refine ⟨fun hreleases => hreleased (recycled_of_releasesAt h hcovers hreleases), ?_⟩
    intro hleaves
    rcases recorded_of_leavesAt h hcovers hleaves with hrecorded | hescape
    · exact hreleased hrecorded
    · rw [hescapes] at hescape
      cases hescape
  · intro hnever
    obtain ⟨hrecycled, hescapes⟩ := explained_of_no_release h fun p k g hreads =>
      (hnever p k g hreads.path hreads.along).1
    refine ⟨hrecycled, List.eq_nil_iff_forall_not_mem.2 ?_⟩
    intro k hk
    obtain ⟨p, g, hreads, hleaves⟩ := hescapes k hk
    exact (hnever p k g hreads.path hreads.along).2 hleaves

/-! ## Where control never gets -/

/-- No value of the frame is the instance. -/
def WithoutInstance (m : Method) (f : Frame Bool) : Prop :=
  f.Related m (fun b _ => b = false) f

/-- Only the call that obtains the instance brings it into a frame. -/
theorem WithoutInstance.execute {j : Nat} {f f' : Frame Bool} {instr : Instruction}
    (hf : WithoutInstance m f) (hother : j ≠ i)
    (hexecute : (provenance i).execute () j instr f = .ok ((), f')) : WithoutInstance m f' := by
  have hcall : ∀ site argCount, instr = .invoke site → site.argCount? = some argCount →
      (provenance i).CallsAlike m (provenance i) (fun b _ => b = false) () () j site argCount
        f f := by
    intro site argCount _ _ args g args' g' _ _ _ hg
    exact ⟨fun _ => by simp [provenance, provenanceThrough, hother], hg⟩
  obtain ⟨_, hsame, hrelated⟩ :=
    (Interpreter.execute_alike (R := fun b _ => b = false) instr rfl hcall hf).exists_ok hexecute
  obtain rfl := Except.ok.inj (hexecute.symm.trans hsame)
  exact hrelated

theorem WithoutInstance.handler {f f' : Frame Bool} (hf : WithoutInstance m f)
    (hentry : (provenance i).handlerEntry () f = .ok f') : WithoutInstance m f' := by
  obtain ⟨_, hsame, hrelated⟩ := (Interpreter.handlerEntry_alike (J := provenance i) (t := ())
    (R := fun b _ => b = false) rfl hf).exists_ok hentry
  obtain rfl := Except.ok.inj (hentry.symm.trans hsame)
  exact hrelated

/-- If the instance is obtained where control never gets, no path has it. -/
theorem no_instance_of_unreached (hi : ¬m.Reachable i) (hp : Path m 0 p k)
    (halong : (provenance i).along m () p = .ok ((), g)) (q : Place) : g.value? q ≠ some true := by
  have hkept : m.Reachable k ∧ WithoutInstance m g := by
    refine Interpreter.along_induction (P := fun k _ g => m.Reachable k ∧ WithoutInstance m g)
      ⟨.refl, .new rfl⟩ ?_ ?_ hp halong
    · rintro j k _ _ f f' instr ⟨hj, hf⟩ - hexecute hk
      have hother : j ≠ i := fun hji => hi (hji ▸ hj)
      exact ⟨hj.tail (.inl hk), hf.execute hother hexecute⟩
    · rintro j h _ f f' ⟨hj, hf⟩ hmem hentry
      exact ⟨hj.tail (.inr ⟨h, hmem, rfl⟩), hf.handler hentry⟩
  intro hq
  obtain ⟨_, -, hfalse⟩ := hkept.2.value? hq
  cases hfalse

theorem neverReturned_of_unreached (hi : ¬m.Reachable i) : NeverReturned kind i m := by
  intro p k g hp halong
  have hnone := no_instance_of_unreached hi hp halong
  refine ⟨?_, ?_⟩
  · rintro ⟨instr, -, -, site, -, -, hargs⟩
    obtain ⟨j, hj, -⟩ := Frame.args?_place hargs (j := 0) rfl
    exact hnone _ hj
  · rintro (⟨instr, -, -, htop⟩ | ⟨-, site, args, n, -, -, hargs, hn, -⟩)
    · exact hnone _ htop
    · obtain ⟨j, hj, -⟩ := Frame.args?_place hargs hn
      exact hnone _ hj

/-! ## Where control gets -/

theorem exists_path_of_reachable (h : m.Reachable k) : ∃ p, Path m 0 p k := by
  induction h with
  | refl => exact ⟨[], .nil⟩
  | tail _ hedge ih =>
    obtain ⟨p, hp⟩ := ih
    rcases hedge with hsuccessor | ⟨h, hmem, rfl⟩
    · exact ⟨_, .normal hp hsuccessor⟩
    · exact ⟨_, .caught hp hmem⟩

/-- Where an analysis succeeds, a path goes on to the successors of the instruction it leads to. -/
theorem exists_reads_successor (h : trackInstance m i kind = .ok a)
    (hreads : Reads (fun _ => false) i m p k g) {l : Nat} (hl : l ∈ m.successors k) :
    ∃ instr g', m.code[k]? = some instr ∧ (provenance i).execute () k instr g = .ok ((), g') ∧
      Reads (fun _ => false) i m (p ++ [⟨k, l, false⟩]) l g' := by
  have hpath : Path m 0 (p ++ [⟨k, l, false⟩]) l := .normal hreads.path hl
  obtain ⟨g', halong, -⟩ := provenance_covered h hpath
  obtain ⟨_, g₀, instr, hbefore, hcode, hexecute⟩ := Interpreter.along_normal_eq_ok halong
  obtain rfl : g₀ = g := (Prod.mk.inj (Except.ok.inj (hbefore.symm.trans hreads.along))).2
  exact ⟨instr, g', hcode, hexecute, hpath, halong⟩

/-- Where some path leads and every path from there comes to a release, the instance is given back
on a path. -/
theorem GivesBackFrom.exists_release (h : trackInstance m i kind = .ok a)
    (hback : GivesBackFrom kind i m k g) (hreads : Reads (fun _ => false) i m p k g) :
    ¬NeverReturned kind i m := by
  induction hback generalizing p with
  | now hreleases => exact fun hnever => (hnever p _ _ hreads.path hreads.along).1 hreleases
  | later hcode hgoesOn _ _ ih _ =>
    obtain ⟨l, hl⟩ := List.exists_mem_of_ne_nil _ hgoesOn
    obtain ⟨instr, g', hcode', hexecute, hreads'⟩ := exists_reads_successor h hreads hl
    obtain rfl := Option.some.inj (hcode.symm.trans hcode')
    exact ih g' hexecute l hl hreads'

/-- An instance is given back on a path if control gets to the call that obtains it and every path
from there comes to a release. -/
theorem not_neverReturned_of_reached (h : trackInstance m i kind = .ok a) {site : CallSite}
    (hsite : m.code[i]? = some (.invoke site)) (hi : m.Reachable i)
    (hback : ∀ p g, Path m 0 p i → (provenance i).along m () p = .ok ((), g) →
      GivesBackAfter kind i m g) : ¬NeverReturned kind i m := by
  obtain ⟨p, hp⟩ := exists_path_of_reachable hi
  obtain ⟨g, halong, -⟩ := provenance_covered h hp
  have hnext : i + 1 ∈ m.successors i := by simp [Method.successors, hsite]
  obtain ⟨instr, g', hcode, hexecute, hreads⟩ := exists_reads_successor h ⟨hp, halong⟩ hnext
  exact (hback p g hp halong instr g' hcode hexecute _ hnext).exists_release h hreads

/-! ## What is reported -/

variable {t : ResourceTable} {options : CheckOptions} {unit : ClassFile} {j : Nat}

/-- Of a kind that is followed through methods a leak is to be reported where the check of an
instance comes to that verdict. -/
theorem toReport_leaked_iff (hchecked : kind.flowChecked = true) :
    ToReport t options unit (j, i) .leaked kind ↔ ∃ id m report,
      ObtainedAt t unit j i id kind m ∧ checkMethodFlow m i kind = .ok report ∧
        report.verdict = .leaked := by
  constructor
  · intro h
    cases h with
    | leaked hat _ hflow hleaked => exact ⟨_, _, _, hat, hflow, hleaked⟩
    | unreleased _ _ hunchecked =>
      rw [hchecked] at hunchecked
      cases hunchecked
  · rintro ⟨id, m, report, hat, hflow, hleaked⟩
    exact .leaked hat hchecked hflow hleaked

/-- A diagnostic of a leak that names a kind of the table comes from a finding about this kind. -/
theorem exists_finding_of_leaked {fs : List Finding} (ht : t.names.Nodup)
    (hfs : Reports t options unit fs) (hkind : kind ∈ t.kinds) {d : Diagnostic}
    (hd : d ∈ fs.map (Finding.diagnostic t options unit)) (hcode : d.code = FindingKind.leaked.code)
    (hresource : d.resource = some kind.name) :
    ∃ j i, ⟨(j, i), .leaked, kind⟩ ∈ fs ∧
      d = Finding.diagnostic t options unit ⟨(j, i), .leaked, kind⟩ := by
  obtain ⟨⟨⟨j, i⟩, code, kind'⟩, hx, rfl⟩ := List.mem_map.1 hd
  rw [Finding.diagnostic_eq] at hcode hresource
  obtain rfl : code = .leaked := FindingKind.code_injective hcode
  have hname : kind'.name = kind.name := Option.some.inj hresource
  obtain ⟨id, m, hat⟩ := ((hfs.exactly _).1 hx).obtained
  obtain ⟨id', hid'⟩ := List.mem_iff_getElem?.1 hkind
  obtain rfl := ResourceTable.eq_of_name_eq ht hat.kind hid' hname
  obtain rfl : kind' = kind := Option.some.inj (hat.kind.symm.trans hid')
  exact ⟨j, i, hx, rfl⟩

/-- The check of an instance comes to the verdict of a leak where it is not given up, and where
control never gets to the call or no path gives the instance back or takes it out. -/
theorem exists_leaked_iff : (∃ report, checkMethodFlow m i kind = .ok report ∧
      report.verdict = .leaked) ↔ (∃ report, checkMethodFlow m i kind = .ok report) ∧
        (m.Reachable i → NeverReturned kind i m) := by
  constructor
  · rintro ⟨report, hflow, hleaked⟩
    obtain ⟨a, ha, rfl⟩ := checkMethodFlow_eq_ok.1 hflow
    exact ⟨⟨_, hflow⟩, fun _ => (verdict_eq_leaked_iff ha).1 hleaked⟩
  · rintro ⟨⟨report, hflow⟩, hnever⟩
    refine ⟨report, hflow, ?_⟩
    obtain ⟨a, ha, rfl⟩ := checkMethodFlow_eq_ok.1 hflow
    refine (verdict_eq_leaked_iff ha).2 ?_
    by_cases hi : m.Reachable i
    · exact hnever hi
    · exact neverReturned_of_unreached hi

/-- An account of the leaks that are reported of kinds that are followed through methods. -/
structure LeakAccount (t : ResourceTable) (options : CheckOptions) (unit : ClassFile)
    (fs : List Finding) : Prop where
  diagnostics : (checkUnit t options unit).diagnostics =
    Diagnostic.sort (fs.map (Finding.diagnostic t options unit))
  once : (fs.map Finding.key).Nodup
  /-- A diagnostic tells by its code and its resource which finding it is about. -/
  told : ∀ d ∈ (checkUnit t options unit).diagnostics, d.code = FindingKind.leaked.code →
    ∀ kind ∈ t.kinds, d.resource = some kind.name →
      ∃ j i, ⟨(j, i), .leaked, kind⟩ ∈ fs ∧
        d = Finding.diagnostic t options unit ⟨(j, i), .leaked, kind⟩
  /-- An instance is reported if its method can be analyzed, and if no path gives it back or takes
  it out of the method or control never gets to the call that obtains it. -/
  exactly : ∀ j i kind, kind.flowChecked = true →
    (⟨(j, i), .leaked, kind⟩ ∈ fs ↔ ∃ id m, ObtainedAt t unit j i id kind m ∧
      (∃ report, checkMethodFlow m i kind = .ok report) ∧
        (m.Reachable i → NeverReturned kind i m))
  /-- No instance is reported that control gets to and that every path gives back. -/
  returned : ∀ j i id kind m, kind.flowChecked = true → ObtainedAt t unit j i id kind m →
    m.Reachable i → (∀ p g, Path m 0 p i → (provenance i).along m () p = .ok ((), g) →
      GivesBackAfter kind i m g) → ⟨(j, i), .leaked, kind⟩ ∉ fs

/-- Of the kinds that are followed through methods leaks are reported exactly at the instructions
that obtain an instance in a method that can be analyzed, where control never gets there or no path
gives the instance back or takes it out. In particular none is reported where control gets and every
path gives the instance back. -/
theorem leaks_where_reached (ht : t.names.Nodup) (options : CheckOptions) (unit : ClassFile) :
    ∃ fs, LeakAccount t options unit fs := by
  obtain ⟨fs, hfs, hdiagnostics⟩ := exists_reports ht options unit
  have hexactly : ∀ j i kind, kind.flowChecked = true →
      (⟨(j, i), .leaked, kind⟩ ∈ fs ↔ ∃ id m, ObtainedAt t unit j i id kind m ∧
        (∃ report, checkMethodFlow m i kind = .ok report) ∧
          (m.Reachable i → NeverReturned kind i m)) := by
    intro j i kind hchecked
    rw [hfs.exactly, toReport_leaked_iff hchecked]
    simp only [exists_and_left, exists_leaked_iff]
  refine ⟨fs, hdiagnostics, hfs.once, ?_, hexactly, ?_⟩
  · intro d hd hcode kind hkind hresource
    rw [hdiagnostics, (Diagnostic.sort_perm _).mem_iff] at hd
    exact exists_finding_of_leaked ht hfs hkind hd hcode hresource
  · intro j i id kind m hchecked hat hi hback hx
    obtain ⟨_, _, hat', ⟨report, hflow⟩, hnever⟩ := (hexactly j i kind hchecked).1 hx
    obtain ⟨-, -, rfl⟩ := hat.unique hat'
    obtain ⟨a, ha, -⟩ := checkMethodFlow_eq_ok.1 hflow
    obtain ⟨site, hsite, -⟩ := hat.call
    exact not_neverReturned_of_reached ha hsite hi hback (hnever hi)

/-! ### A parcel that is given back at once -/

/-- What was pushed last is on top of the stack. -/
theorem value?_push {V : Type} {f f' : Frame V} {v : V} (h : f.push v = .ok f') :
    f'.value? (.entry 0) = some v := by
  unfold Frame.push at h
  cases hlimit : f.exhausted? with
  | some limit =>
    rw [hlimit] at h
    cases h
  | none =>
    rw [hlimit] at h
    obtain rfl := Except.ok.inj h
    rfl

/-- The instance is on top of the stack after the call that returns it. -/
theorem value?_obtained {site : CallSite} {g' : Frame Bool} (hreturns : site.returnsValue = true)
    (h : (provenance i).execute () i (.invoke site) g = .ok ((), g')) :
    g'.value? (.entry 0) = some true := by
  cases hcount : site.argCount? with
  | none => simp [Interpreter.execute, hcount] at h
  | some argCount =>
    cases hinvoke : (provenance i).invoke () i site argCount g with
    | error e => simp [Interpreter.execute, hcount, hinvoke, located] at h
    | ok outcome =>
      simp only [Interpreter.execute, hcount, hinvoke] at h
      obtain rfl : outcome = ((), g') := Except.ok.inj h
      obtain ⟨⟨args, f⟩, -, hrest⟩ := bind_eq_ok.1 hinvoke
      simp only [hreturns, if_true] at hrest
      obtain ⟨f', hpush, heq⟩ := bind_eq_ok.1 hrest
      obtain rfl := (Prod.mk.inj (Except.ok.inj heq)).2
      have hinstance : ((provenance i).call () i site args f).2.1 = true := by
        simp [provenance, provenanceThrough]
      rw [hinstance] at hpush
      exact value?_push hpush

/-- Whatever the values are, a parcel that the next instruction gives back is given back on every
path. -/
theorem givesBackAfter_of_next {n : Nat} {code : List Instruction}
    (hobtain : code[i]? = some obtainParcel) (hrecycle : code[i + 1]? = some recycleParcel)
    (g : Frame Bool) : GivesBackAfter ResourceTable.parcel i (plainMethod n code) g := by
  intro instr g' hcode hexecute k hk
  obtain rfl := Option.some.inj (hobtain.symm.trans hcode)
  have hsuccessors : (plainMethod n code).successors i = [i + 1] := by
    simp [Method.successors, plainMethod, hobtain, obtainParcel]
  rw [hsuccessors] at hk
  obtain rfl := List.mem_singleton.1 hk
  refine .now ⟨recycleParcel, hrecycle, Nat.succ_ne_self i, _, rfl, by decide, ?_⟩
  obtain ⟨below, hstack⟩ : ∃ below, g'.stack = true :: below :=
    List.head?_eq_some_iff.1 (List.head?_eq_getElem? ▸ value?_obtained (by decide) hexecute)
  refine Frame.args?_eq_some.2 ⟨1, by decide, ?_, ?_⟩
  · rw [hstack]
    exact Nat.le_add_left _ _
  · rw [hstack]
    rfl

/-- A class with one method. -/
def classOf (m : Method) : ClassFile where
  name := "Sender"
  sourceFile := none
  methods := [m]

/-- The method returns before it obtains a parcel and gives it back. -/
def releaseAfterReturn : Method :=
  plainMethod 0 [.ret, obtainParcel, recycleParcel, .ret]

/-- The same without the return. -/
def releaseAtOnce : Method :=
  plainMethod 0 [obtainParcel, recycleParcel, .ret]

set_option maxRecDepth 10000 in
/-- Nothing is reported of a parcel that control comes to and that is given back at once. -/
theorem leaks_where_reached_of_release :
    let t := ResourceTable.configured [] []
    let options : CheckOptions := ⟨false, true, .warning⟩
    t.names.Nodup ∧ ∃ fs, LeakAccount t options (classOf releaseAtOnce) fs ∧
      ∃ id m, ObtainedAt t (classOf releaseAtOnce) 0 0 id ResourceTable.parcel m ∧
        ⟨(0, 0), .leaked, ResourceTable.parcel⟩ ∉ fs := by
  intro t options
  have ht : t.names.Nodup := ResourceTable.nodup_names_configured [] []
  obtain ⟨fs, hfs⟩ := leaks_where_reached ht options (classOf releaseAtOnce)
  have hat : ObtainedAt t (classOf releaseAtOnce) 0 0 4 ResourceTable.parcel releaseAtOnce :=
    ⟨rfl, ⟨_, rfl, by decide⟩, by decide⟩
  have hback : ∀ g, GivesBackAfter ResourceTable.parcel 0 releaseAtOnce g :=
    givesBackAfter_of_next rfl rfl
  exact ⟨ht, fs, hfs, 4, _, hat, hfs.returned _ _ _ _ _ rfl hat .refl fun _ g _ _ => hback g⟩

set_option maxRecDepth 10000 in
/-- Every path from the call gives the parcel back, but control never gets to the call, and a leak
is reported there. -/
theorem leak_reported_unreached :
    let t := ResourceTable.configured [] []
    let options : CheckOptions := ⟨false, true, .warning⟩
    t.names.Nodup ∧ ResourceTable.parcel ∈ t.kinds ∧ ResourceTable.parcel.flowChecked = true ∧
      (classOf releaseAfterReturn).methods[0]? = some releaseAfterReturn ∧
      (∃ d ∈ (checkUnit t options (classOf releaseAfterReturn)).diagnostics,
        d.code = "R0001" ∧ d.resource = some ResourceTable.parcel.name ∧
          d.location = some (.ofInstruction (classOf releaseAfterReturn) releaseAfterReturn 1)) ∧
      ¬releaseAfterReturn.Reachable 1 ∧
      ∀ g, GivesBackAfter ResourceTable.parcel 1 releaseAfterReturn g := by
  intro t options
  have ht : t.names.Nodup := ResourceTable.nodup_names_configured [] []
  have hat : ObtainedAt t (classOf releaseAfterReturn) 0 1 4 ResourceTable.parcel
      releaseAfterReturn := ⟨rfl, ⟨_, rfl, by decide⟩, by decide⟩
  obtain ⟨a, ha, hrecord⟩ :
      ∃ a, trackInstance releaseAfterReturn 1 ResourceTable.parcel = .ok a ∧
        a.record = .none :=
    analyze_of_runFor 20 _ (by decide) (by decide) (by decide)
  have hleaked : a.record.verdict = .leaked := by rw [hrecord]; rfl
  let x : Finding := ⟨(0, 1), .leaked, ResourceTable.parcel⟩
  have hreport : ToReport t options (classOf releaseAfterReturn) (0, 1) .leaked
      ResourceTable.parcel :=
    .leaked hat rfl (checkMethodFlow_eq_ok.2 ⟨a, ha, rfl⟩) hleaked
  refine ⟨ht, by decide, rfl, rfl, ⟨_, (mem_diagnostics ht).2 ⟨x, hreport, rfl⟩, ?_⟩, ?_, ?_⟩
  · rw [Finding.diagnostic_eq]
    exact ⟨rfl, rfl, rfl⟩
  · intro hreachable
    have hstays : ∀ k, releaseAfterReturn.Reachable k → k = 0 := by
      intro k hk
      induction hk with
      | refl => rfl
      | tail _ hedge ih =>
        subst ih
        rcases hedge with hnext | ⟨h, hmem, -⟩
        · cases hnext
        · cases hmem
    exact absurd (hstays 1 hreachable) (by decide)
  · exact givesBackAfter_of_next rfl rfl

end PoolLint

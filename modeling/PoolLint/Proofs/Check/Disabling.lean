import PoolLint.Proofs.Check.WithoutKind
import PoolLint.Proofs.Ownership.LeakVerdict
import PoolLint.Settings.Basic

/-!
# Switching a kind off

A kind that is switched off in the settings is left out of the table. If no call of a class that
counts for the kind is covered by another kind then this takes away the diagnostics about the kind,
and adds only those that another kind takes over (`checkUnit_disable`). A call that is covered by
two kinds lets diagnostics about the other kind come and go; each of the three ways in which another
kind can be affected does occur (`disable_affects_others`).
-/

namespace PoolLint

open PoolLint.Bytecode PoolLint.Flow

/-- The settings with one more kind that is never reported. -/
def LintSettings.disable (s : LintSettings) (name : String) : LintSettings :=
  { s with disabledKinds := s.disabledKinds ++ [name] }

theorem LintSettings.resourceTable_disable (s : LintSettings) (name : String) :
    (s.disable name).resourceTable = s.resourceTable.remove [name] := by
  unfold resourceTable disable ResourceTable.configured ResourceTable.remove
  rw [List.filter_filter]
  congr 2
  funext kind
  simp [Bool.and_comm]

/-- The diagnostics of a class that are not about the kind of that name. -/
def LintSettings.aboutOthers (s : LintSettings) (name : String) (unit : ClassFile) :
    List Diagnostic :=
  (s.checkUnit unit).filter (·.resource != some name)

/-- Switching a kind off only takes away the diagnostics about it. -/
def LintSettings.OnlyRemoves (s : LintSettings) (name : String) (unit : ClassFile) : Prop :=
  (s.disable name).checkUnit unit = s.aboutOthers name unit

section Disable

variable {s : LintSettings} {name : String} {unit : ClassFile}

theorem LintSettings.aboutOthers_eq (hs : s.enabled = true) (name : String) (unit : ClassFile) :
    s.aboutOthers name unit = Diagnostic.sort
      (((findings s.resourceTable s.checkOptions unit).filter (·.kind.name != name)).map
        (Finding.diagnostic s.resourceTable s.checkOptions unit)) := by
  have ht : s.resourceTable.names.Nodup := ResourceTable.nodup_names_configured _ _
  obtain ⟨-, hdiagnostics⟩ := reports_findings ht s.checkOptions unit
  unfold LintSettings.aboutOthers LintSettings.checkUnit
  rw [if_pos hs, hdiagnostics, sort_filter_resource]

theorem LintSettings.checkUnit_disable_eq (hs : s.enabled = true) (name : String)
    (unit : ClassFile) : (s.disable name).checkUnit unit = Diagnostic.sort
      ((findings (s.resourceTable.remove [name]) s.checkOptions unit).map
        (Finding.diagnostic s.resourceTable s.checkOptions unit)) := by
  have ht : s.resourceTable.names.Nodup := ResourceTable.nodup_names_configured _ _
  obtain ⟨-, hdiagnostics⟩ :=
    reports_findings (ResourceTable.nodup_names_remove ht [name]) s.checkOptions unit
  have hs' : (s.disable name).enabled = true := hs
  unfold LintSettings.checkUnit
  rw [if_pos hs', LintSettings.resourceTable_disable, ← diagnostic_remove s.resourceTable _ _ name]
  exact hdiagnostics

theorem LintSettings.checkUnit_disable_perm (hs : s.enabled = true)
    (h : s.resourceTable.StandsApart unit name) :
    ∃ added : List Finding, (added.map Finding.key).Nodup ∧
      (∀ x, x ∈ added ↔ TakenOver s.resourceTable s.checkOptions unit name x) ∧
      ((s.disable name).checkUnit unit).Perm (s.aboutOthers name unit ++
        added.map (Finding.diagnostic s.resourceTable s.checkOptions unit)) := by
  have ht : s.resourceTable.names.Nodup := ResourceTable.nodup_names_configured _ _
  obtain ⟨added, honce, hadded, hperm⟩ := findings_remove_perm ht h s.checkOptions
  refine ⟨added, honce, hadded, ?_⟩
  rw [aboutOthers_eq hs, checkUnit_disable_eq hs]
  refine (Diagnostic.sort_perm _).trans ((hperm.map _).trans ?_)
  rw [List.map_append]
  exact (Diagnostic.sort_perm _).symm.append_right _

theorem LintSettings.aboutOthers_sublist (hs : s.enabled = true)
    (h : s.resourceTable.StandsApart unit name) :
    (s.aboutOthers name unit).Sublist ((s.disable name).checkUnit unit) := by
  rw [aboutOthers_eq hs, checkUnit_disable_eq hs]
  exact Diagnostic.sort_sublist ((findings_filter_sublist h s.checkOptions).map _)

theorem LintSettings.onlyRemoves_iff (hs : s.enabled = true)
    (h : s.resourceTable.StandsApart unit name) : s.OnlyRemoves name unit ↔
      ∀ x, ¬TakenOver s.resourceTable s.checkOptions unit name x := by
  obtain ⟨added, -, hadded, hperm⟩ := checkUnit_disable_perm hs h
  have hlength : ((s.disable name).checkUnit unit).length =
      (s.aboutOthers name unit).length + added.length := by
    rw [hperm.length_eq, List.length_append, List.length_map]
  constructor
  · intro honly x hx
    rw [honly] at hlength
    have hempty : added = [] := List.eq_nil_of_length_eq_zero (by omega)
    have hmem := (hadded x).2 hx
    rw [hempty] at hmem
    cases hmem
  · intro hnone
    have hempty : added = [] :=
      List.eq_nil_iff_forall_not_mem.2 fun x hx => hnone x ((hadded x).1 hx)
    rw [hempty, List.length_nil, Nat.add_zero] at hlength
    exact ((aboutOthers_sublist hs h).eq_of_length hlength.symm).symm

/-- If no call of the class that counts for a kind is covered by another kind, then switching the
kind off takes away the diagnostics about it and no others, and leaves those in their order. What it
adds are uses after release that were reported for the kind and are now reported for another one;
the list is the old one less the diagnostics about the kind exactly if there are none. -/
theorem checkUnit_disable (hs : s.enabled = true) (h : s.resourceTable.StandsApart unit name) :
    (∃ added : List Finding, (added.map Finding.key).Nodup ∧
      (∀ x, x ∈ added ↔ TakenOver s.resourceTable s.checkOptions unit name x) ∧
      ((s.disable name).checkUnit unit).Perm (s.aboutOthers name unit ++
        added.map (Finding.diagnostic s.resourceTable s.checkOptions unit))) ∧
    (s.aboutOthers name unit).Sublist ((s.disable name).checkUnit unit) ∧
    (s.OnlyRemoves name unit ↔
      ∀ x, ¬TakenOver s.resourceTable s.checkOptions unit name x) :=
  ⟨s.checkUnit_disable_perm hs h, s.aboutOthers_sublist hs h, s.onlyRemoves_iff hs h⟩

end Disable

/-! ### One call, two kinds -/

/-- `MotionEvent.obtain()` -/
def obtainMotion : Instruction :=
  .invoke ⟨.static, "android/view/MotionEvent", "obtain", "()Landroid/view/MotionEvent;"⟩

/-- `event.recycle()` -/
def recycleMotion : Instruction :=
  .invoke ⟨.virtual, "android/view/MotionEvent", "recycle", "()V"⟩

/-- Hands a parcel and a motion event to one call, when both are released. -/
def useBothReleased : Method :=
  plainMethod 0 [obtainParcel, .dup, recycleParcel, obtainMotion, .dup, recycleMotion,
    .invoke ⟨.static, "app/Log", "write", "(Landroid/os/Parcel;Landroid/view/MotionEvent;)V"⟩, .ret]

/-- A class with this method alone. -/
def releasedPair : ClassFile where
  name := "Pair"
  sourceFile := none
  methods := [useBothReleased]

set_option maxRecDepth 10000 in
theorem useBothReleased_parcel : ∃ report,
    checkMethodFlow useBothReleased 0 ResourceTable.parcel = .ok report ∧
      report.doubleReleases = [6] := by
  obtain ⟨a, ha, hrecord⟩ : ∃ a, trackInstance useBothReleased 0 ResourceTable.parcel = .ok a ∧
      a.record = ⟨true, [], [6]⟩ :=
    analyze_of_runFor 20 _ (by decide) (by decide) (by decide)
  exact ⟨_, checkMethodFlow_eq_ok.2 ⟨a, ha, rfl⟩, congrArg Evidence.doubleReleases hrecord⟩

set_option maxRecDepth 10000 in
theorem useBothReleased_motion : ∃ report,
    checkMethodFlow useBothReleased 3 ResourceTable.motionEvent = .ok report ∧
      report.doubleReleases = [6] := by
  obtain ⟨a, ha, hrecord⟩ : ∃ a,
      trackInstance useBothReleased 3 ResourceTable.motionEvent = .ok a ∧
        a.record = ⟨true, [], [6]⟩ :=
    analyze_of_runFor 20 _ (by decide) (by decide) (by decide)
  exact ⟨_, checkMethodFlow_eq_ok.2 ⟨a, ha, rfl⟩, congrArg Evidence.doubleReleases hrecord⟩

set_option maxRecDepth 10000 in
/-- The call is reported for the parcel, which is obtained first. -/
theorem releasedPair_parcel (options : CheckOptions) :
    ToReport LintSettings.default.resourceTable options releasedPair (0, 6) .alreadyRecycled
      ResourceTable.parcel := by
  obtain ⟨report, hreport, hlisted⟩ := useBothReleased_parcel
  have hat : ObtainedAt LintSettings.default.resourceTable releasedPair 0 0 4 ResourceTable.parcel
      useBothReleased :=
    ⟨rfl, ⟨_, rfl, by decide⟩, by decide⟩
  have hmem : 6 ∈ report.doubleReleases := by
    rw [hlisted]
    exact List.mem_singleton_self 6
  refine .alreadyRecycled hat rfl hreport hmem ?_
  intro i' id' kind' m' report' hlt
  exact absurd hlt (Nat.not_lt_zero i')

set_option maxRecDepth 10000 in
/-- Without parcels it is reported for the motion event. -/
theorem releasedPair_motion (options : CheckOptions) :
    ToReport (LintSettings.default.resourceTable.remove ["Parcel"]) options releasedPair (0, 6)
      .alreadyRecycled ResourceTable.motionEvent := by
  obtain ⟨report, hreport, hlisted⟩ := useBothReleased_motion
  have hat : ObtainedAt (LintSettings.default.resourceTable.remove ["Parcel"]) releasedPair 0 3 3
      ResourceTable.motionEvent useBothReleased :=
    ⟨rfl, ⟨_, rfl, by decide⟩, by decide⟩
  have hmem : 6 ∈ report.doubleReleases := by
    rw [hlisted]
    exact List.mem_singleton_self 6
  have hnone : ∀ placed ∈ classCalls releasedPair, placed.site.2 < 3 →
      (LintSettings.default.resourceTable.remove ["Parcel"]).classify placed.call = none := by
    decide
  refine .alreadyRecycled hat rfl hreport hmem ?_
  -- no call before it obtains anything else
  intro i' id' kind' m' report' hlt hat'
  obtain ⟨call, hcode, hrole⟩ := hat'.call
  rw [hnone ⟨(0, i'), call⟩ (mem_classCalls.2 ⟨m', hat'.method, hcode⟩) hlt] at hrole
  cases hrole

theorem releasedPair_takenOver : TakenOver LintSettings.default.resourceTable
    LintSettings.default.checkOptions releasedPair "Parcel"
      ⟨(0, 6), .alreadyRecycled, ResourceTable.motionEvent⟩ :=
  ⟨rfl, ⟨_, rfl, releasedPair_parcel _⟩, releasedPair_motion _⟩

set_option maxRecDepth 10000 in
theorem releasedPair_standsApart :
    LintSettings.default.resourceTable.StandsApart releasedPair "Parcel" := by
  decide

/-- Without parcels a use after release is reported for the motion event. -/
theorem checkUnit_disable_of_pair : LintSettings.default.enabled = true ∧
    LintSettings.default.resourceTable.StandsApart releasedPair "Parcel" ∧
      ¬LintSettings.default.OnlyRemoves "Parcel" releasedPair := by
  refine ⟨rfl, releasedPair_standsApart, ?_⟩
  intro honly
  obtain ⟨-, -, hiff⟩ := checkUnit_disable rfl releasedPair_standsApart
  exact hiff.1 honly _ releasedPair_takenOver

/-! ### One call that two kinds cover -/

/-- Envelopes are obtained together with their message, by one call. -/
def envelope : ResourceKind :=
  ResourceTable.recycled "Envelope" "app/Envelope" [⟨"android/os/Message", "obtain", none⟩] false

/-- Notes are messages that are taken from another pool, and released like messages. -/
def note : ResourceKind :=
  ResourceTable.recycled "Note" "android/os/Message" [⟨"app/Notes", "take", none⟩] false

/-- Takes a note and gives it back. -/
def releasedNote : ClassFile where
  name := "Notes"
  sourceFile := none
  methods := [plainMethod 0
    [.invoke ⟨.static, "app/Notes", "take", "()Landroid/os/Message;"⟩,
      .invoke ⟨.virtual, "android/os/Message", "recycle", "()V"⟩, .ret]]

/-- The settings without any layer, with one more kind. -/
def LintSettings.withKind (kind : ResourceKind) : LintSettings :=
  { LintSettings.default with extraKinds := [kind] }

theorem LintSettings.mem_checkUnit_of_unreleased {s : LintSettings} {unit : ClassFile}
    {j i id : Nat} {kind : ResourceKind} {m : Method} (hs : s.enabled = true)
    (hrescan : s.rescan = true) (hat : ObtainedAt s.resourceTable unit j i id kind m)
    (hunchecked : kind.flowChecked = false) (hunreleased : ¬ReleasedIn s.resourceTable unit id) :
    (⟨(j, i), .leaked, kind⟩ : Finding).diagnostic s.resourceTable s.checkOptions unit ∈
      s.checkUnit unit := by
  have ht : s.resourceTable.names.Nodup := ResourceTable.nodup_names_configured _ _
  unfold LintSettings.checkUnit
  rw [if_pos hs]
  exact (mem_diagnostics ht).2 ⟨_, .unreleased hrescan hat hunchecked hunreleased, rfl⟩

set_option maxRecDepth 10000 in
theorem disable_message_of_envelope :
    ¬(LintSettings.withKind envelope).OnlyRemoves "Message" droppedMessage := by
  let s := LintSettings.withKind envelope
  let leak : Diagnostic := (⟨(0, 0), .leaked, ResourceTable.message⟩ : Finding).diagnostic
    s.resourceTable s.checkOptions droppedMessage
  have hbefore : s.checkUnit droppedMessage = [leak] := by
    have hsorted : s.checkUnit droppedMessage = Diagnostic.sort [leak] := rfl
    rw [hsorted, Diagnostic.sort, List.mergeSort_singleton]
  have hnone : s.aboutOthers "Message" droppedMessage = [] := by
    unfold LintSettings.aboutOthers
    rw [hbefore, List.filter_cons_of_neg (by decide), List.filter_nil]
  -- without messages the call obtains an envelope, which nothing releases
  have hat : ∃ m, ObtainedAt (s.disable "Message").resourceTable droppedMessage 0 0 4 envelope m :=
    ⟨_, rfl, ⟨_, rfl, by decide⟩, by decide⟩
  have hunreleased : ¬ReleasedIn (s.disable "Message").resourceTable droppedMessage 4 := by
    rw [releasedIn_iff]
    decide
  obtain ⟨m, hat⟩ := hat
  have hmem := LintSettings.mem_checkUnit_of_unreleased rfl rfl hat rfl hunreleased
  intro honly
  rw [honly, hnone] at hmem
  cases hmem

set_option maxRecDepth 10000 in
theorem disable_message_of_note :
    ¬(LintSettings.withKind note).OnlyRemoves "Message" releasedNote := by
  let s := LintSettings.withKind note
  -- without messages the second call releases the note
  have hafter : (s.disable "Message").checkUnit releasedNote = [] := by
    have hsorted : (s.disable "Message").checkUnit releasedNote = Diagnostic.sort [] := rfl
    rw [hsorted, Diagnostic.sort, List.mergeSort_nil]
  -- with them it releases a message, so that the note is reported
  have hat : ∃ m, ObtainedAt s.resourceTable releasedNote 0 0 5 note m :=
    ⟨_, rfl, ⟨_, rfl, by decide⟩, by decide⟩
  have hunreleased : ¬ReleasedIn s.resourceTable releasedNote 5 := by
    rw [releasedIn_iff]
    decide
  obtain ⟨m, hat⟩ := hat
  have hmem := LintSettings.mem_checkUnit_of_unreleased rfl rfl hat rfl hunreleased
  intro honly
  have hnone : s.aboutOthers "Message" releasedNote = [] := honly.symm.trans hafter
  unfold LintSettings.aboutOthers at hnone
  rw [List.filter_eq_nil_iff] at hnone
  exact hnone _ hmem (by decide)

/-- Three ways in which switching a kind off affects another one: a use after release is taken over,
a call obtains another kind instead, or a call releases another kind instead. -/
theorem disable_affects_others :
    ¬LintSettings.default.OnlyRemoves "Parcel" releasedPair ∧
      ¬(LintSettings.withKind envelope).OnlyRemoves "Message" droppedMessage ∧
      ¬(LintSettings.withKind note).OnlyRemoves "Message" releasedNote := by
  refine ⟨?_, disable_message_of_envelope, disable_message_of_note⟩
  intro honly
  exact (LintSettings.onlyRemoves_iff rfl releasedPair_standsApart).1 honly _
    releasedPair_takenOver

end PoolLint

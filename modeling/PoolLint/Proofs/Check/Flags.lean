import PoolLint.Proofs.Check.Epoch

/-!
# What the flags of a check say

Flags are listed by name, each name once, but those of a kind are found by its position in the
table. For every table, also one in which names repeat, the flags at a position therefore tell of
the kind at that position of the table (`checkUnit_flags`). They stand under the name of that kind
as long as no name repeats, which holds for every table that comes from settings, whatever is
inserted into it later (`flags_position_of_kind`). A repeated name moves the names behind it, and
then a kind's flags are lost or stand under the name of another one (`flags_lost`).
-/

namespace PoolLint

open PoolLint.Bytecode PoolLint.Flow

/-- What the calls of a class, and the precise checks, show of the kind at a position of the
table. -/
def seenFlags (t : ResourceTable) (unit : ClassFile) (id : Nat) : KindFlags where
  obtained := (classCalls unit).any fun placed =>
    decide (t.classify placed.call = some (.obtain id))
  released := (classCalls unit).any fun placed =>
    decide (t.classify placed.call = some (.release id))
  handled := (flowOutcomes t unit).any fun o => !o.failed && decide (o.job.kind = id)

/-! ## Flags by position -/

namespace UnitContext

variable {ctx : UnitContext} {names : List String} {f : Nat → KindFlags}

/-- The flags stand under these names, and have these values at their positions. -/
structure Marks (ctx : UnitContext) (names : List String) (f : Nat → KindFlags) : Prop where
  named : ctx.flags.map (·.1) = names
  values : ∀ id < names.length, ctx.flagsOf id = f id

theorem Marks.flags_eq (h : ctx.Marks names f) :
    ctx.flags = names.mapIdx fun id name => (name, f id) := by
  have hlength : ctx.flags.length = names.length := by
    rw [← h.named, List.length_map]
  apply List.ext_getElem
  · rw [hlength, List.length_mapIdx]
  · intro id hid hid'
    have hname : ctx.flags[id].1 = names[id] := by
      simp [← h.named]
    have hvalue : ctx.flags[id].2 = f id := by
      have hflags := h.values id (hlength ▸ hid)
      unfold flagsOf at hflags
      rw [List.getElem?_eq_getElem hid] at hflags
      exact hflags
    rw [List.getElem_mapIdx, ← hname, ← hvalue]

theorem Marks.of_flags {ctx' : UnitContext} (h : ctx.Marks names f)
    (hflags : ctx'.flags = ctx.flags) : ctx'.Marks names f := by
  refine ⟨hflags ▸ h.named, ?_⟩
  intro id hid
  rw [flagsOf_congr hflags, h.values id hid]

theorem Marks.of_values {g : Nat → KindFlags} (h : ctx.Marks names f) (hfg : ∀ id, f id = g id) :
    ctx.Marks names g :=
  ⟨h.named, fun id hid => (h.values id hid).trans (hfg id)⟩

/-- A change at a position that does not exist is no change. -/
theorem Marks.modify (h : ctx.Marks names f) (k : Nat) (g : KindFlags → KindFlags) :
    (ctx.modifyFlags k g).Marks names fun id => if id = k then g (f id) else f id := by
  constructor
  case named =>
    rw [← h.named]
    apply List.ext_getElem
    · simp [modifyFlags]
    · intro id hid hid'
      simp only [modifyFlags, List.getElem_map, List.getElem_modify]
      split <;> rfl
  case values =>
    intro id hid
    show _ = if id = k then g (f id) else f id
    by_cases hk : k < ctx.flags.length
    · rw [flagsOf_modify g hk, h.values id hid]
    · have hsame : (ctx.modifyFlags k g).flags = ctx.flags := by
        apply List.modify_eq_self
        omega
      have hne : id ≠ k := by
        rintro rfl
        rw [← h.named, List.length_map] at hid
        exact hk hid
      rw [if_neg hne, flagsOf_congr hsame, h.values id hid]

theorem marks_new (t : ResourceTable) :
    (UnitContext.new t).Marks t.names.eraseDups fun _ => .clear := by
  refine ⟨?_, fun id _ => flagsOf_new t id⟩
  simp [UnitContext.new, Function.comp_def]

/-- A call sets the flag of its role. -/
theorem Marks.noteRole (h : ctx.Marks names f) (t : ResourceTable) (call : CallSite) :
    (ctx.noteRole (t.classify call)).Marks names fun id =>
      { f id with
        obtained := (f id).obtained || decide (t.classify call = some (.obtain id))
        released := (f id).released || decide (t.classify call = some (.release id)) } := by
  cases hrole : t.classify call with
  | none =>
    refine h.of_values ?_
    simp
  | some role =>
    cases role with
    | obtain k =>
      refine (h.modify k fun flags => { flags with obtained := true }).of_values ?_
      intro id
      by_cases hid : id = k
      · simp [hid]
      · simp [hid, Ne.symm hid]
    | release k =>
      refine (h.modify k fun flags => { flags with released := true }).of_values ?_
      intro id
      by_cases hid : id = k
      · simp [hid]
      · simp [hid, Ne.symm hid]

theorem Marks.noteRoles (h : ctx.Marks names f) (t : ResourceTable) (calls : List PlacedCall) :
    (calls.foldl (fun ctx placed => ctx.noteRole (t.classify placed.call)) ctx).Marks names
      fun id =>
        { f id with
          obtained := (f id).obtained ||
            calls.any fun placed => decide (t.classify placed.call = some (.obtain id))
          released := (f id).released ||
            calls.any fun placed => decide (t.classify placed.call = some (.release id)) } := by
  induction calls generalizing ctx f with
  | nil =>
    refine h.of_values ?_
    simp
  | cons placed calls ih =>
    refine (ih (h.noteRole t placed.call)).of_values ?_
    intro id
    simp [Bool.or_assoc]

end UnitContext

/-! ## The passes -/

namespace Checker

variable {t : ResourceTable} {options : CheckOptions} {unit : ClassFile} {c : Checker}
  {names : List String} {f : Nat → KindFlags}

theorem foldl_report_sameButReports {α : Type} (as : List α) (place : α → Site) (id : Nat)
    (finding : FindingKind) (c : Checker) :
    SameButReports c (as.foldl (fun c a => c.report unit (place a) id finding) c) := by
  induction as generalizing c with
  | nil => exact .refl c
  | cons a as ih => exact (report_sameButReports (place a) finding).trans (ih _)

/-- Of a precise check the flags keep whether it came to a conclusion. -/
theorem record_flags (c : Checker) (o : FlowOutcome) : (record unit c o).context.flags =
    if o.failed then c.context.flags else (c.context.noteHandled o.job.kind).flags := by
  unfold record FlowOutcome.failed
  cases o.result with
  | error e => rfl
  | ok report =>
    let site := o.job.site
    let c₁ := c.withContext fun ctx => { ctx with settled := insertNew site ctx.settled }
    let c₂ := report.doubleReleases.foldl
      (fun c i => c.report unit (site.1, i) o.job.kind .alreadyRecycled) c₁
    let c₃ := if report.verdict = .leaked then c₂.report unit site o.job.kind .leaked else c₂
    have hreported : SameButReports c₁ c₂ :=
      foldl_report_sameButReports _ (fun i => (site.1, i)) _ _ c₁
    have hsame : SameButReports c₁ c₃ := by
      by_cases hleaked : report.verdict = .leaked
      · simp only [c₃, if_pos hleaked]
        exact hreported.trans (report_sameButReports _ _)
      · simp only [c₃, if_neg hleaked]
        exact hreported
    have hflags : c₃.context.flags = c.context.flags := hsame.flags
    show (c₃.context.noteHandled o.job.kind).flags = (c.context.noteHandled o.job.kind).flags
    simp only [UnitContext.noteHandled, UnitContext.modifyFlags, hflags]

theorem marks_record (h : c.context.Marks names f) (o : FlowOutcome) :
    (record unit c o).context.Marks names fun id =>
      { f id with handled := (f id).handled || (!o.failed && decide (o.job.kind = id)) } := by
  cases hfailed : o.failed with
  | true =>
    have hflags : (record unit c o).context.flags = c.context.flags := by
      rw [record_flags, if_pos hfailed]
    refine (h.of_flags hflags).of_values ?_
    simp
  | false =>
    have hflags : (record unit c o).context.flags = (c.context.noteHandled o.job.kind).flags := by
      rw [record_flags, hfailed]
      rfl
    refine ((h.modify o.job.kind _).of_flags hflags).of_values ?_
    intro id
    by_cases hid : id = o.job.kind
    · simp [hid]
    · simp [hid, Ne.symm hid]

theorem marks_foldl_record (h : c.context.Marks names f) (os : List FlowOutcome) :
    (os.foldl (record unit) c).context.Marks names fun id =>
      { f id with
        handled := (f id).handled || os.any fun o => !o.failed && decide (o.job.kind = id) } := by
  induction os generalizing c f with
  | nil =>
    refine h.of_values ?_
    simp
  | cons o os ih =>
    refine (ih (marks_record h o)).of_values ?_
    intro id
    simp [Bool.or_assoc]

theorem marks_precisePass (h : c.context.Marks names fun _ => .clear) (hc : c.table = t) :
    (c.precisePass unit).context.Marks names (seenFlags t unit) := by
  unfold precisePass
  rw [foldl_noteRole hc, hc]
  refine (marks_foldl_record ((h.noteRoles t (classCalls unit)).of_flags rfl) _).of_values ?_
  intro id
  simp [seenFlags, KindFlags.clear]

/-- A release found in the coarse pass is known already. -/
theorem marks_coarseCall (h : c.context.Marks names f) (hc : c.table = t) {placed : PlacedCall}
    (hreleased : ∀ id, t.classify placed.call = some (.release id) → (f id).released = true) :
    (coarseCall unit c placed).context.Marks names f ∧ (coarseCall unit c placed).table = t := by
  unfold coarseCall
  rw [hc]
  cases hrole : t.classify placed.call with
  | none => exact ⟨h, hc⟩
  | some role =>
    cases role with
    | obtain id =>
      simp only
      split_ifs
      · have hsame : SameButReports c (c.report unit placed.site id .leaked) :=
          report_sameButReports placed.site .leaked
        exact ⟨h.of_flags hsame.flags, (report_uses unit placed.site id .leaked).1.trans hc⟩
      · exact ⟨h, hc⟩
    | release id =>
      refine ⟨(h.modify id fun flags => { flags with released := true }).of_values ?_, hc⟩
      intro j
      by_cases hj : j = id
      · subst hj
        rw [if_pos rfl, ← hreleased j hrole]
      · rw [if_neg hj]

theorem marks_coarsePass (h : c.context.Marks names (seenFlags t unit)) (hc : c.table = t) :
    (c.coarsePass unit).context.Marks names (seenFlags t unit) := by
  have hcalls : ∀ placed ∈ classCalls unit, ∀ id,
      t.classify placed.call = some (.release id) → (seenFlags t unit id).released = true := by
    intro placed hmem id hrole
    exact List.any_eq_true.2 ⟨placed, hmem, decide_eq_true hrole⟩
  unfold coarsePass
  generalize classCalls unit = calls at hcalls
  induction calls generalizing c with
  | nil => exact h
  | cons placed calls ih =>
    obtain ⟨h', hc'⟩ := marks_coarseCall h hc (hcalls placed List.mem_cons_self)
    exact ih h' hc' fun other hother => hcalls other (List.mem_cons_of_mem placed hother)

theorem beginRescan_phase (h : c.beginRescan.2 = true) : c.beginRescan.1.phase = .rescanning := by
  unfold beginRescan at h ⊢
  split_ifs at h ⊢
  rfl

end Checker

section Unit

variable {t : ResourceTable} {options : CheckOptions} {unit : ClassFile}

/-- The flags of a check, in the order of the distinct names: those at a position tell what was
seen of the kind at that position of the table. -/
theorem checkUnit_flags (t : ResourceTable) (options : CheckOptions) (unit : ClassFile) :
    (checkUnit t options unit).flags =
      t.names.eraseDups.mapIdx fun id name => (name, seenFlags t unit id) := by
  -- the precise pass sets all flags, and what follows leaves them as they are
  let c := ((Checker.new t options).beforeUnit.scan unit).afterUnit.1
  have hfirst : c.context.Marks t.names.eraseDups (seenFlags t unit) :=
    (Checker.marks_precisePass (UnitContext.marks_new t) rfl).of_flags
      (Checker.afterUnit_context _).1
  have htable : c.table = t := by
    have hscan : ((Checker.new t options).beforeUnit.scan unit).table = t :=
      (Checker.serve_uses (Checker.new t options).beforeUnit (.scan unit)).1
    exact (Checker.serve_uses _ .afterUnit).1.trans hscan
  have hends : ∃ c' : Checker, c'.context.Marks t.names.eraseDups (seenFlags t unit) ∧
      (checkUnit t options unit).flags = c'.context.flags := by
    have hasked : c.beginRescan.1.context.Marks t.names.eraseDups (seenFlags t unit) := by
      rw [Checker.beginRescan_context]
      exact hfirst
    unfold checkUnit
    simp only
    split_ifs with _ hrescanned hnone
    · -- the second pass
      have hphase : c.beginRescan.1.phase = .rescanning := Checker.beginRescan_phase hrescanned
      have htable' : c.beginRescan.1.table = t :=
        (Checker.serve_uses c .beginRescan).1.trans htable
      have hscan : c.beginRescan.1.scan unit = c.beginRescan.1.coarsePass unit := by
        unfold Checker.scan
        rw [hphase]
      refine ⟨(c.beginRescan.1.scan unit).afterUnit.1, ?_, rfl⟩
      rw [hscan]
      exact (Checker.marks_coarsePass hasked htable').of_flags (Checker.afterUnit_context _).1
    · exact ⟨_, hasked, rfl⟩
    · exact hnone.elim
    · exact ⟨c, hfirst, rfl⟩
  obtain ⟨c', hmarks, hflags⟩ := hends
  rw [hflags, hmarks.flags_eq]

/-! ## Flags by name -/

/-- Some call of the class has this role for a kind of that name. -/
def CalledAs (t : ResourceTable) (unit : ClassFile) (role : Nat → CallRole) (name : String) :
    Prop :=
  ∃ placed ∈ classCalls unit, ∃ id kind, t.classify placed.call = some (role id) ∧
    t.kind? id = some kind ∧ kind.name = name

/-- The flags under each name tell of the kinds of that name. -/
def UnitReport.FlagsByName (r : UnitReport) (t : ResourceTable) (unit : ClassFile) : Prop :=
  ∀ name flags, (name, flags) ∈ r.flags →
    (flags.obtained = true ↔ CalledAs t unit .obtain name) ∧
      (flags.released = true ↔ CalledAs t unit .release name)

theorem seenFlags_obtained {id : Nat} : (seenFlags t unit id).obtained = true ↔
    ∃ placed ∈ classCalls unit, t.classify placed.call = some (.obtain id) := by
  simp [seenFlags]

theorem seenFlags_released {id : Nat} : (seenFlags t unit id).released = true ↔
    ∃ placed ∈ classCalls unit, t.classify placed.call = some (.release id) := by
  simp [seenFlags]

/-- If names do not repeat then a kind is known by its name. -/
theorem ResourceTable.kind_named_iff (ht : t.names.Nodup) {id k : Nat} (hid : id < t.names.length) :
    (∃ kind, t.kind? k = some kind ∧ kind.name = t.names[id]) ↔ k = id := by
  have hname : ∀ j, t.names[j]? = (t.kind? j).map (·.name) := by
    intro j
    exact List.getElem?_map
  have hnames : t.names[id]? = some t.names[id] := List.getElem?_eq_getElem hid
  rw [← Option.map_eq_some_iff, ← hname]
  constructor
  · intro hk
    obtain ⟨hk', -⟩ := List.getElem?_eq_some_iff.1 hk
    exact (List.getElem?_inj hk' ht).1 (hk.trans hnames.symm)
  · rintro rfl
    exact hnames

theorem calledAs_iff (ht : t.names.Nodup) (role : Nat → CallRole) {id : Nat}
    (hid : id < t.names.length) : CalledAs t unit role t.names[id] ↔
      ∃ placed ∈ classCalls unit, t.classify placed.call = some (role id) := by
  constructor
  · rintro ⟨placed, hplaced, k, kind, hrole, hkind⟩
    obtain rfl := (ResourceTable.kind_named_iff ht hid).1 ⟨kind, hkind⟩
    exact ⟨placed, hplaced, hrole⟩
  · rintro ⟨placed, hplaced, hrole⟩
    obtain ⟨kind, hkind⟩ := (ResourceTable.kind_named_iff ht hid).2 rfl
    exact ⟨placed, hplaced, id, kind, hrole, hkind⟩

theorem flagsByName_of_nodup (ht : t.names.Nodup) (options : CheckOptions) (unit : ClassFile) :
    (checkUnit t options unit).FlagsByName t unit := by
  intro name flags hmem
  rw [checkUnit_flags, UnitContext.eraseDups_of_nodup ht] at hmem
  obtain ⟨id, hid, heq⟩ := List.mem_mapIdx.1 hmem
  obtain ⟨rfl, rfl⟩ := Prod.mk.inj heq
  rw [seenFlags_obtained, seenFlags_released, calledAs_iff ht .obtain hid,
    calledAs_iff ht .release hid]
  exact ⟨Iff.rfl, Iff.rfl⟩

/-- In every table the flags at a position tell of the kind at that position, and stand under the
name that comes there once repetitions are left out. If no name repeats then this is the kind's own
name; and none does in a table that comes from settings, whatever is inserted into it. -/
theorem flags_position_of_kind (options : CheckOptions) (unit : ClassFile) :
    (∀ t : ResourceTable, (checkUnit t options unit).flags.map (·.1) = t.names.eraseDups ∧
      ∀ (id : Nat) name flags, (checkUnit t options unit).flags[id]? = some (name, flags) →
        (flags.obtained = true ↔
          ∃ placed ∈ classCalls unit, t.classify placed.call = some (.obtain id)) ∧
        (flags.released = true ↔
          ∃ placed ∈ classCalls unit, t.classify placed.call = some (.release id))) ∧
    (∀ t : ResourceTable, t.names.Nodup → (checkUnit t options unit).FlagsByName t unit) ∧
    ∀ (disabled : List String) (extra inserted : List ResourceKind),
      let t := inserted.foldl ResourceTable.insert (.configured disabled extra)
      (checkUnit t options unit).FlagsByName t unit := by
  refine ⟨?_, ?_, ?_⟩
  · intro t
    rw [checkUnit_flags]
    constructor
    · simp [List.mapIdx_eq_zipIdx_map, Function.comp_def]
    · intro id name flags hflags
      rw [List.getElem?_mapIdx] at hflags
      obtain ⟨_, -, heq⟩ := Option.map_eq_some_iff.1 hflags
      obtain ⟨-, rfl⟩ := Prod.mk.inj heq
      exact ⟨seenFlags_obtained, seenFlags_released⟩
  · intro t ht
    exact flagsByName_of_nodup ht options unit
  · intro disabled extra inserted t
    refine flagsByName_of_nodup ?_ options unit
    exact ResourceTable.nodup_names_foldl_insert
      (ResourceTable.nodup_names_configured disabled extra) inserted

end Unit

/-- A table that holds one kind twice. -/
def repeatedTracker : ResourceTable :=
  ⟨[ResourceTable.velocityTracker, ResourceTable.velocityTracker,
    ResourceTable.message]⟩

set_option maxRecDepth 10000 in
/-- Messages are the third kind of this table, but there are only two names, so that nothing is
noted of them: a message that is obtained and dropped leaves no flag, and is not reported. -/
theorem flags_lost :
    let options : CheckOptions := ⟨false, true, .warning⟩
    ¬(checkUnit repeatedTracker options droppedMessage).FlagsByName repeatedTracker
        droppedMessage ∧
      (checkUnit repeatedTracker options droppedMessage).diagnostics = [] := by
  intro options
  constructor
  · intro h
    have hflags : ("Message", seenFlags repeatedTracker droppedMessage 1) ∈
        (checkUnit repeatedTracker options droppedMessage).flags := by
      rw [checkUnit_flags]
      exact List.mem_cons_of_mem _ List.mem_cons_self
    have hobtained : CalledAs repeatedTracker droppedMessage .obtain "Message" :=
      ⟨_, List.mem_cons_self, 2, ResourceTable.message, by decide, rfl, rfl⟩
    have hnone : ¬∃ placed ∈ classCalls droppedMessage,
        repeatedTracker.classify placed.call = some (.obtain 1) := by
      decide
    exact hnone (seenFlags_obtained.1 ((h _ _ hflags).1.2 hobtained))
  · have hsorted : (checkUnit repeatedTracker options droppedMessage).diagnostics =
        Diagnostic.sort [] := rfl
    rw [hsorted, Diagnostic.sort, List.mergeSort_nil]

end PoolLint

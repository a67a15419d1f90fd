import PoolLint.Check.Checker
import PoolLint.Proofs.Check.Calls
import PoolLint.Proofs.Report.Filling

/-!
# What the two passes do to a checker

A checker reports a finding once, however often it comes up. The list of what it has reported is
therefore the list of all that came up, with later repetitions left out (`noteFinding`), and the
passes can be described by what comes up in them. Flags are described by the calls and checks
that set them; for this the names of kinds must not repeat, since flags are kept by name.
-/

namespace PoolLint

open PoolLint.Bytecode PoolLint.Flow

/-! ## Findings -/

/-- Something to be reported: where, what, and about which kind of resource. -/
@[ext]
structure Finding where
  site : Site
  code : FindingKind
  kind : ResourceKind
deriving DecidableEq, Repr

namespace Finding

/-- Findings that agree in place and code count as one. -/
def key (x : Finding) : Site × FindingKind :=
  (x.site, x.code)

/-- The finding in words. -/
def diagnostic (t : ResourceTable) (options : CheckOptions) (unit : ClassFile) (x : Finding) :
    Diagnostic :=
  (Checker.new t options).diagnostic unit x.site x.kind x.code

/-- All that a checker needs for the words are its options. -/
theorem checker_diagnostic {c : Checker} {options : CheckOptions} (h : c.options = options)
    (t : ResourceTable) (unit : ClassFile) (x : Finding) :
    c.diagnostic unit x.site x.kind x.code = x.diagnostic t options unit := by
  unfold diagnostic Checker.diagnostic
  rw [h]
  rfl

theorem diagnostic_eq (t : ResourceTable) (options : CheckOptions) (unit : ClassFile)
    (x : Finding) : x.diagnostic t options unit =
      { severity := options.severity
        code := x.code.code
        message := x.code.message x.kind.simpleName
        help := Template.render [("kind", x.kind.simpleName)] x.code.entry.helpTemplate
        location := unit.methods[x.site.1]?.map fun m => .ofInstruction unit m x.site.2
        resource := some x.kind.name } := by
  unfold diagnostic Checker.diagnostic Draft.build
  rw [if_pos]
  · rfl
  · show (x.code.draft x.kind.simpleName).missingParams.isEmpty = true
    rw [x.code.missingParams_draft]
    rfl

end Finding

/-- Adds a finding, unless there is one already at its place with its code. -/
def noteFinding (fs : List Finding) (x : Finding) : List Finding :=
  if (fs.map Finding.key).contains x.key then fs else fs ++ [x]

section Noting

variable {fs xs : List Finding} {x : Finding}

theorem noteFinding_of_mem (h : x.key ∈ fs.map Finding.key) : noteFinding fs x = fs := by
  unfold noteFinding
  rw [if_pos (List.contains_iff_mem.2 h)]

theorem noteFinding_of_not_mem (h : x.key ∉ fs.map Finding.key) :
    noteFinding fs x = fs ++ [x] := by
  unfold noteFinding
  rw [if_neg fun hmem => h (List.contains_iff_mem.1 hmem)]

theorem nodup_foldl_noteFinding (xs : List Finding) (h : (fs.map Finding.key).Nodup) :
    ((xs.foldl noteFinding fs).map Finding.key).Nodup := by
  induction xs generalizing fs with
  | nil => exact h
  | cons x xs ih =>
    refine ih ?_
    by_cases hmem : x.key ∈ fs.map Finding.key
    · rw [noteFinding_of_mem hmem]
      exact h
    · rw [noteFinding_of_not_mem hmem, List.map_append, List.map_singleton]
      refine List.nodup_append.2 ⟨h, List.nodup_singleton _, ?_⟩
      intro a ha b hb
      rw [List.mem_singleton.1 hb]
      exact ne_of_mem_of_not_mem ha hmem

/-- Findings at new places are all added, in their order. -/
theorem foldl_noteFinding_of_new (h : (xs.map Finding.key).Nodup)
    (hnew : ∀ x ∈ xs, x.key ∉ fs.map Finding.key) : xs.foldl noteFinding fs = fs ++ xs := by
  induction xs generalizing fs with
  | nil => exact (List.append_nil fs).symm
  | cons x xs ih =>
    obtain ⟨hx, hxs⟩ := List.nodup_cons.1 h
    rw [List.foldl_cons, noteFinding_of_not_mem (hnew x List.mem_cons_self), ih hxs ?_,
      List.append_assoc, List.singleton_append]
    intro y hy hmem
    rw [List.map_append, List.map_singleton, List.mem_append, List.mem_singleton] at hmem
    rcases hmem with hold | hsame
    · exact hnew y (List.mem_cons_of_mem x hy) hold
    · exact hx (hsame ▸ List.mem_map_of_mem hy)

/-- What is noted of a list is the first finding for each place and code. -/
theorem mem_foldl_noteFinding : x ∈ xs.foldl noteFinding fs ↔
    x ∈ fs ∨ x.key ∉ fs.map Finding.key ∧ xs.find? (·.key = x.key) = some x := by
  induction xs generalizing fs with
  | nil => simp
  | cons y xs ih =>
    rw [List.foldl_cons, ih, List.find?_cons]
    -- the head settles whether anything later with its key counts
    by_cases hsame : y.key = x.key
    · rw [decide_eq_true hsame]
      by_cases hmem : y.key ∈ fs.map Finding.key
      · rw [noteFinding_of_mem hmem]
        rw [hsame] at hmem
        simp [hmem]
      · rw [noteFinding_of_not_mem hmem]
        rw [hsame] at hmem
        have hpresent : x.key ∈ (fs ++ [y]).map Finding.key := by
          rw [List.map_append, List.map_singleton, hsame]
          exact List.mem_append_right _ (List.mem_singleton.2 rfl)
        rw [List.mem_append, List.mem_singleton]
        constructor
        · rintro ((hold | rfl) | ⟨hnot, -⟩)
          · exact .inl hold
          · exact .inr ⟨hmem, rfl⟩
          · exact absurd hpresent hnot
        · rintro (hold | ⟨-, heq⟩)
          · exact .inl (.inl hold)
          · exact .inl (.inr (Option.some.inj heq).symm)
    · rw [decide_eq_false hsame]
      by_cases hmem : y.key ∈ fs.map Finding.key
      · rw [noteFinding_of_mem hmem]
      · have hne : x ≠ y := fun heq => hsame (congrArg Finding.key heq).symm
        have hkeys : x.key ∉ (fs ++ [y]).map Finding.key ↔ x.key ∉ fs.map Finding.key := by
          rw [List.map_append, List.map_singleton, List.mem_append, List.mem_singleton, not_or]
          exact and_iff_left fun heq => hsame heq.symm
        rw [noteFinding_of_not_mem hmem, hkeys, List.mem_append, List.mem_singleton,
          or_iff_left hne]

end Noting

/-! ## Flags -/

namespace UnitContext

variable {ctx : UnitContext} {id j : Nat}

theorem length_flags_modify (g : KindFlags → KindFlags) :
    (ctx.modifyFlags id g).flags.length = ctx.flags.length :=
  List.length_modify _ _ _

theorem flagsOf_modify (g : KindFlags → KindFlags) (hid : id < ctx.flags.length) :
    (ctx.modifyFlags id g).flagsOf j = if j = id then g (ctx.flagsOf j) else ctx.flagsOf j := by
  unfold modifyFlags flagsOf
  simp only [List.getElem?_modify]
  by_cases hj : j = id
  · subst hj
    rw [List.getElem?_eq_getElem hid]
    simp
  · rw [if_neg hj]
    cases ctx.flags[j]? with
    | none => rfl
    | some entry => simp [Ne.symm hj]

theorem flagsOf_congr {ctx' : UnitContext} (h : ctx'.flags = ctx.flags) (id : Nat) :
    ctx'.flagsOf id = ctx.flagsOf id := by
  unfold flagsOf
  rw [h]

/-- Some kind looks leaky if some position has leaky flags. -/
theorem needsRescan_iff :
    ctx.needsRescan = true ↔ ∃ id < ctx.flags.length, (ctx.flagsOf id).looksLeaky = true := by
  unfold needsRescan
  rw [List.any_eq_true]
  constructor
  · rintro ⟨⟨name, flags⟩, hmem, hleaky⟩
    obtain ⟨id, hid, heq⟩ := List.mem_iff_getElem.1 hmem
    refine ⟨id, hid, ?_⟩
    unfold flagsOf
    rw [List.getElem?_eq_getElem hid, heq]
    exact hleaky
  · rintro ⟨id, hid, hleaky⟩
    refine ⟨ctx.flags[id], List.getElem_mem hid, ?_⟩
    unfold flagsOf at hleaky
    rw [List.getElem?_eq_getElem hid] at hleaky
    exact hleaky

theorem eraseDups_of_nodup {names : List String} (h : names.Nodup) : names.eraseDups = names := by
  induction names with
  | nil => rfl
  | cons name names ih =>
    obtain ⟨hname, hnames⟩ := List.nodup_cons.1 h
    have hfilter : names.filter (fun other => !(other == name)) = names := by
      refine List.filter_eq_self.2 ?_
      intro other hother
      have hne : other ≠ name := fun heq => hname (heq ▸ hother)
      simp [hne]
    rw [List.eraseDups_cons, hfilter, ih hnames]

/-- If names do not repeat then every kind has flags of its own. -/
theorem length_flags_new {t : ResourceTable} (ht : t.names.Nodup) :
    (UnitContext.new t).flags.length = t.kinds.length := by
  unfold UnitContext.new
  rw [List.length_map, eraseDups_of_nodup ht, ResourceTable.names, List.length_map]

theorem flagsOf_new (t : ResourceTable) (id : Nat) : (UnitContext.new t).flagsOf id = .clear := by
  unfold UnitContext.new flagsOf
  rw [List.getElem?_map]
  cases t.names.eraseDups[id]? <;> rfl

/-! ### Roles -/

variable {t : ResourceTable}

theorem length_flags_noteRole (role : Option CallRole) :
    (ctx.noteRole role).flags.length = ctx.flags.length := by
  match role with
  | some (.obtain _) => exact length_flags_modify _
  | some (.release _) => exact length_flags_modify _
  | none => rfl

/-- A call sets the flag of its role. -/
theorem flagsOf_noteRole (hlength : ctx.flags.length = t.kinds.length) (call : CallSite) :
    (ctx.noteRole (t.classify call)).flagsOf id =
      { ctx.flagsOf id with
        obtained := (ctx.flagsOf id).obtained ||
          decide (t.classify call = some (.obtain id))
        released := (ctx.flagsOf id).released ||
          decide (t.classify call = some (.release id)) } := by
  cases hrole : t.classify call with
  | none => simp [noteRole]
  | some role =>
    cases role with
    | obtain k =>
      have hk : k < ctx.flags.length := hlength ▸ lt_of_classify_obtain hrole
      rw [noteRole, noteObtained, flagsOf_modify _ hk]
      by_cases hid : id = k
      · simp [hid]
      · simp [hid, Ne.symm hid]
    | release k =>
      have hk : k < ctx.flags.length := hlength ▸ lt_of_classify_release hrole
      rw [noteRole, noteReleased, flagsOf_modify _ hk]
      by_cases hid : id = k
      · simp [hid]
      · simp [hid, Ne.symm hid]

/-- The flags after all roles are noted. -/
theorem flags_noteRoles (hlength : ctx.flags.length = t.kinds.length) (calls : List PlacedCall) :
    let ctx' := calls.foldl (fun ctx placed => ctx.noteRole (t.classify placed.call)) ctx
    ctx'.flags.length = t.kinds.length ∧ ∀ id, ctx'.flagsOf id =
      { ctx.flagsOf id with
        obtained := (ctx.flagsOf id).obtained ||
          calls.any fun placed => decide (t.classify placed.call = some (.obtain id))
        released := (ctx.flagsOf id).released ||
          calls.any fun placed => decide (t.classify placed.call = some (.release id)) } := by
  induction calls generalizing ctx with
  | nil =>
    refine ⟨hlength, ?_⟩
    intro id
    simp
  | cons placed calls ih =>
    obtain ⟨hlength', hflags⟩ := ih ((length_flags_noteRole _).trans hlength)
    refine ⟨hlength', ?_⟩
    intro id
    rw [List.foldl_cons, hflags id, flagsOf_noteRole hlength, List.any_cons, List.any_cons]
    simp [Bool.or_assoc]

end UnitContext

/-! ## Reports -/

/-- The checker has reported exactly these findings, in this order. -/
structure Checker.Shows (c : Checker) (t : ResourceTable) (options : CheckOptions)
    (unit : ClassFile) (fs : List Finding) : Prop where
  usesTable : c.table = t
  usesOptions : c.options = options
  reported : c.context.reported = fs.map Finding.key
  submitted : c.collector.submitted = fs.map (Finding.diagnostic t options unit)

/-- The checkers differ at most in what they have reported. -/
structure Checker.SameButReports (c c' : Checker) : Prop where
  phase : c'.phase = c.phase
  flags : c'.context.flags = c.context.flags
  settled : c'.context.settled = c.context.settled
  requested : c'.context.rescanRequested = c.context.rescanRequested
  aborted : c'.context.aborted = c.context.aborted

namespace Checker

variable {t : ResourceTable} {options : CheckOptions} {unit : ClassFile} {c c' c'' : Checker}
  {fs : List Finding} {kind : ResourceKind} {id : Nat}

theorem SameButReports.refl (c : Checker) : SameButReports c c :=
  ⟨rfl, rfl, rfl, rfl, rfl⟩

theorem SameButReports.trans (h : SameButReports c c') (h' : SameButReports c' c'') :
    SameButReports c c'' :=
  ⟨h'.phase.trans h.phase, h'.flags.trans h.flags, h'.settled.trans h.settled,
    h'.requested.trans h.requested, h'.aborted.trans h.aborted⟩

theorem report_sameButReports (site : Site) (finding : FindingKind) :
    SameButReports c (c.report unit site id finding) := by
  unfold report
  split_ifs
  · exact .refl c
  · cases c.table.kind? id with
    | none => exact ⟨rfl, rfl, rfl, rfl, rfl⟩
    | some kind => exact ⟨rfl, rfl, rfl, rfl, rfl⟩

/-- A report adds its finding, unless that is a repetition. -/
theorem report_shows (h : c.Shows t options unit fs) (hkind : t.kind? id = some kind)
    (site : Site) (finding : FindingKind) :
    (c.report unit site id finding).Shows t options unit
      (noteFinding fs ⟨site, finding, kind⟩) := by
  have hkey : (⟨site, finding, kind⟩ : Finding).key = (site, finding) := rfl
  unfold report
  rw [h.reported]
  by_cases hmem : (site, finding) ∈ fs.map Finding.key
  · rw [if_pos hmem, noteFinding_of_mem (hkey ▸ hmem)]
    exact h
  · rw [if_neg hmem, noteFinding_of_not_mem (hkey ▸ hmem), h.usesTable, hkind]
    refine ⟨rfl, h.usesOptions, ?_, ?_⟩
    · rw [List.map_append]
      rfl
    · show c.collector.submitted ++ [c.diagnostic unit site kind finding] = _
      rw [List.map_append, h.submitted, List.map_singleton,
        ← Finding.checker_diagnostic h.usesOptions]

/-- The same for a list of findings about one kind. -/
theorem foldl_report {α : Type} (h : c.Shows t options unit fs) (hkind : t.kind? id = some kind)
    (as : List α) (place : α → Site) (finding : FindingKind) :
    let c' := as.foldl (fun c a => c.report unit (place a) id finding) c
    SameButReports c c' ∧ c'.Shows t options unit
      ((as.map fun a => (⟨place a, finding, kind⟩ : Finding)).foldl noteFinding fs) := by
  induction as generalizing c fs with
  | nil => exact ⟨.refl c, h⟩
  | cons a as ih =>
    obtain ⟨hsame, hshows⟩ := ih (report_shows h hkind (place a) finding)
    exact ⟨(report_sameButReports (place a) finding).trans hsame, hshows⟩

end Checker

/-! ## The precise pass -/

/-- The check was given up. -/
def FlowOutcome.failed (o : FlowOutcome) : Bool :=
  match o.result with
  | .error _ => true
  | .ok _ => false

/-- What is to be reported of an instance obtained at a place. -/
def reportFindings (site : Site) (kind : ResourceKind) (report : FlowReport) : List Finding :=
  (report.doubleReleases.map fun i => ⟨(site.1, i), .alreadyRecycled, kind⟩) ++
    if report.verdict = .leaked then [⟨site, .leaked, kind⟩] else []

/-- What is to be reported after a precise check. -/
def outcomeFindings (t : ResourceTable) (o : FlowOutcome) : List Finding :=
  match t.kind? o.job.kind, o.result with
  | some kind, .ok report => reportFindings o.job.site kind report
  | _, _ => []

theorem mem_insertNew {α : Type} [DecidableEq α] {a b : α} {as : List α} :
    b ∈ insertNew a as ↔ b ∈ as ∨ b = a := by
  unfold insertNew
  split_ifs with hmem
  · constructor
    · exact .inl
    · rintro (hb | rfl)
      · exact hb
      · exact hmem
  · rw [List.mem_append, List.mem_singleton]

/-- What some precise checks change, reports apart. -/
structure Checker.Recorded (os : List FlowOutcome) (c c' : Checker) : Prop where
  phase : c'.phase = c.phase
  requested : c'.context.rescanRequested = c.context.rescanRequested
  settled : ∀ site, site ∈ c'.context.settled ↔
    site ∈ c.context.settled ∨ ∃ o ∈ os, o.job.site = site
  aborted : c'.context.aborted = c.context.aborted + os.countP (·.failed)
  length : c'.context.flags.length = c.context.flags.length
  flags : ∀ id, c'.context.flagsOf id =
    { c.context.flagsOf id with
      handled := (c.context.flagsOf id).handled ||
        os.any fun o => !o.failed && decide (o.job.kind = id) }

namespace Checker

variable {t : ResourceTable} {options : CheckOptions} {unit : ClassFile} {c c' c'' : Checker}
  {fs : List Finding} {o : FlowOutcome} {os : List FlowOutcome}

theorem Recorded.nil (c : Checker) : Recorded [] c c := by
  refine ⟨rfl, rfl, ?_, rfl, rfl, ?_⟩
  · intro site
    simp
  · intro id
    simp

theorem Recorded.cons (h : Recorded [o] c c') (h' : Recorded os c' c'') :
    Recorded (o :: os) c c'' := by
  refine ⟨h'.phase.trans h.phase, h'.requested.trans h.requested, ?_, ?_,
    h'.length.trans h.length, ?_⟩
  · intro site
    rw [h'.settled, h.settled]
    simp [or_assoc]
  · rw [h'.aborted, h.aborted]
    simp only [List.countP_cons, List.countP_nil]
    omega
  · intro id
    rw [h'.flags, h.flags]
    simp [Bool.or_assoc]

/-- Taking one precise check into account. -/
theorem record_spec (h : c.Shows t options unit fs)
    (hlength : c.context.flags.length = t.kinds.length) {kind : ResourceKind}
    (hkind : t.kind? o.job.kind = some kind) :
    Recorded [o] c (record unit c o) ∧
      (record unit c o).Shows t options unit ((outcomeFindings t o).foldl noteFinding fs) := by
  have hbound : o.job.kind < c.context.flags.length := by
    rw [hlength]
    exact (List.getElem?_eq_some_iff.1 hkind).1
  unfold record outcomeFindings
  rw [hkind]
  cases hresult : o.result with
  | error e =>
    have hfailed : o.failed = true := by
      unfold FlowOutcome.failed
      rw [hresult]
    refine ⟨⟨rfl, rfl, ?_, ?_, rfl, ?_⟩, h.usesTable, h.usesOptions, h.reported, h.submitted⟩
    · intro site
      simp [withContext, mem_insertNew, eq_comm]
    · simp [withContext, hfailed]
    · intro id
      simp [withContext, hfailed, UnitContext.flagsOf]
  | ok report =>
    have hfailed : o.failed = false := by
      unfold FlowOutcome.failed
      rw [hresult]
    -- the states in order: the place is settled, uses are reported, then the leak
    let site := o.job.site
    let c₁ := c.withContext fun ctx => { ctx with settled := insertNew site ctx.settled }
    have h₁ : c₁.Shows t options unit fs := ⟨h.usesTable, h.usesOptions, h.reported, h.submitted⟩
    obtain ⟨hsame₂, h₂⟩ :=
      foldl_report h₁ hkind report.doubleReleases (fun i => (site.1, i)) .alreadyRecycled
    let c₂ := report.doubleReleases.foldl
      (fun c i => c.report unit (site.1, i) o.job.kind .alreadyRecycled) c₁
    let c₃ := if report.verdict = .leaked then c₂.report unit site o.job.kind .leaked else c₂
    obtain ⟨hsame, h₃⟩ : SameButReports c₁ c₃ ∧ c₃.Shows t options unit
        ((reportFindings site kind report).foldl noteFinding fs) := by
      unfold reportFindings
      rw [List.foldl_append]
      by_cases hleaked : report.verdict = .leaked
      · simp only [c₃, if_pos hleaked]
        exact ⟨hsame₂.trans (report_sameButReports _ _), report_shows h₂ hkind site .leaked⟩
      · simp only [c₃, if_neg hleaked]
        exact ⟨hsame₂, h₂⟩
    have hbound₃ : o.job.kind < c₃.context.flags.length := by
      rw [hsame.flags]
      exact hbound
    show Recorded [o] c (c₃.withContext (·.noteHandled o.job.kind)) ∧
      (c₃.withContext (·.noteHandled o.job.kind)).Shows t options unit _
    refine ⟨⟨hsame.phase, hsame.requested, ?_, ?_, ?_, ?_⟩, h₃.usesTable, h₃.usesOptions,
      h₃.reported, h₃.submitted⟩
    · intro place
      show place ∈ c₃.context.settled ↔ _
      rw [hsame.settled]
      simp [c₁, site, withContext, mem_insertNew, eq_comm]
    · show c₃.context.aborted = _
      rw [hsame.aborted]
      simp [c₁, withContext, hfailed]
    · exact (UnitContext.length_flags_modify _).trans (congrArg List.length hsame.flags)
    · intro id
      show (c₃.context.noteHandled o.job.kind).flagsOf id = _
      rw [UnitContext.noteHandled, UnitContext.flagsOf_modify _ hbound₃,
        UnitContext.flagsOf_congr (hsame.flags.trans (rfl : _ = c.context.flags))]
      by_cases hid : id = o.job.kind
      · simp [hid, hfailed]
      · simp [hid, Ne.symm hid, hfailed]

/-- Taking a list of precise checks into account. -/
theorem foldl_record (h : c.Shows t options unit fs)
    (hlength : c.context.flags.length = t.kinds.length)
    (hkinds : ∀ o ∈ os, ∃ kind, t.kind? o.job.kind = some kind) :
    Recorded os c (os.foldl (record unit) c) ∧ (os.foldl (record unit) c).Shows t options unit
      ((os.flatMap (outcomeFindings t)).foldl noteFinding fs) := by
  induction os generalizing c fs with
  | nil => exact ⟨.nil c, h⟩
  | cons o os ih =>
    obtain ⟨kind, hkind⟩ := hkinds o List.mem_cons_self
    obtain ⟨hrecorded, hshows⟩ := record_spec h hlength hkind
    obtain ⟨hrest, hshows'⟩ := ih hshows (hrecorded.length.trans hlength)
      fun o' ho' => hkinds o' (List.mem_cons_of_mem o ho')
    rw [List.flatMap_cons, List.foldl_append]
    exact ⟨hrecorded.cons hrest, hshows'⟩

end Checker

/-- The checker after the precise pass over a class. -/
structure Checker.Scanned (t : ResourceTable) (options : CheckOptions) (unit : ClassFile)
    (c : Checker) : Prop where
  shows : c.Shows t options unit
    (((flowOutcomes t unit).flatMap (outcomeFindings t)).foldl noteFinding [])
  phase : c.phase = .scanning
  requested : c.context.rescanRequested = false
  settled : ∀ site, site ∈ c.context.settled ↔ ∃ o ∈ flowOutcomes t unit, o.job.site = site
  aborted : c.context.aborted = (flowOutcomes t unit).countP (·.failed)
  length : c.context.flags.length = t.kinds.length
  flags : ∀ id, c.context.flagsOf id =
    { obtained := (classCalls unit).any fun placed =>
        decide (t.classify placed.call = some (.obtain id))
      released := (classCalls unit).any fun placed =>
        decide (t.classify placed.call = some (.release id))
      handled := (flowOutcomes t unit).any fun o => !o.failed && decide (o.job.kind = id) }

namespace Checker

variable {t : ResourceTable} {options : CheckOptions} {unit : ClassFile} {c : Checker}
  {fs : List Finding}

/-- Noting roles changes nothing but flags. -/
theorem foldl_noteRole (hc : c.table = t) (calls : List PlacedCall) :
    calls.foldl (fun c placed => c.withContext (·.noteRole (c.table.classify placed.call))) c =
      { c with context := { c.context with
        flags := (calls.foldl (fun ctx placed => ctx.noteRole (t.classify placed.call))
          c.context).flags } } := by
  subst hc
  induction calls generalizing c with
  | nil => rfl
  | cons placed calls ih =>
    rw [List.foldl_cons, List.foldl_cons]
    refine (ih (c := c.withContext (·.noteRole (c.table.classify placed.call)))).trans ?_
    cases c.table.classify placed.call with
    | none => rfl
    | some role => cases role <;> rfl

theorem precisePass_scanned (ht : t.names.Nodup) :
    Scanned t options unit ((Checker.new t options).beforeUnit.scan unit) := by
  let c₀ := (Checker.new t options).beforeUnit
  let ctx := (classCalls unit).foldl
    (fun ctx placed => ctx.noteRole (t.classify placed.call)) (UnitContext.new t)
  let c₁ : Checker := { c₀ with context := { c₀.context with flags := ctx.flags } }
  obtain ⟨hlength, hflags⟩ :=
    UnitContext.flags_noteRoles (UnitContext.length_flags_new ht) (classCalls unit)
  have hscan : c₀.scan unit = (flowOutcomes t unit).foldl (record unit) c₁ := by
    show c₀.precisePass unit = _
    unfold precisePass
    rw [foldl_noteRole (rfl : c₀.table = t)]
    rfl
  have hkinds : ∀ o ∈ flowOutcomes t unit, ∃ kind, t.kind? o.job.kind = some kind := by
    intro o ho
    obtain ⟨kind, m, hobtained, -⟩ := mem_flowOutcomes.1 ho
    exact ⟨kind, hobtained.kind⟩
  have h₁ : c₁.Shows t options unit [] := ⟨rfl, rfl, rfl, rfl⟩
  obtain ⟨hrecorded, hshows⟩ := foldl_record h₁ hlength hkinds
  rw [hscan]
  refine ⟨hshows, hrecorded.phase, hrecorded.requested, ?_, ?_, hrecorded.length.trans hlength, ?_⟩
  · intro site
    rw [hrecorded.settled]
    exact or_iff_right List.not_mem_nil
  · rw [hrecorded.aborted]
    exact Nat.zero_add _
  · intro id
    have hroles : c₁.context.flagsOf id = _ := hflags id
    rw [hrecorded.flags, hroles, UnitContext.flagsOf_new]
    simp [KindFlags.clear]

/-! ## The coarse pass -/

/-- What is to be reported of a call in the coarse pass. -/
def coarseFinding? (t : ResourceTable) (ctx : UnitContext) (placed : PlacedCall) :
    Option Finding :=
  match t.classify placed.call with
  | some (.obtain id) =>
    if (ctx.flagsOf id).looksLeaky && !ctx.settled.contains placed.site then
      (t.kind? id).map (⟨placed.site, .leaked, ·⟩)
    else none
  | _ => none

/-- In the coarse pass no flag changes, since every release is known already. -/
theorem coarseCall_spec {ctx : UnitContext} {placed : PlacedCall}
    (h : c.Shows t options unit fs) (hlength : c.context.flags.length = t.kinds.length)
    (hflags : ∀ id, c.context.flagsOf id = ctx.flagsOf id)
    (hsettled : c.context.settled = ctx.settled)
    (hreleased : ∀ id, t.classify placed.call = some (.release id) →
      (ctx.flagsOf id).released = true) :
    (coarseCall unit c placed).Shows t options unit
        ((coarseFinding? t ctx placed).toList.foldl noteFinding fs) ∧
      (coarseCall unit c placed).context.flags.length = t.kinds.length ∧
      (∀ id, (coarseCall unit c placed).context.flagsOf id = ctx.flagsOf id) ∧
      (coarseCall unit c placed).context.settled = ctx.settled ∧
      (coarseCall unit c placed).context.aborted = c.context.aborted := by
  unfold coarseCall coarseFinding?
  rw [h.usesTable]
  cases hrole : t.classify placed.call with
  | none => exact ⟨h, hlength, hflags, hsettled, rfl⟩
  | some role =>
    cases role with
    | release id =>
      have hbound : id < c.context.flags.length := hlength ▸ lt_of_classify_release hrole
      refine ⟨⟨h.usesTable, h.usesOptions, h.reported, h.submitted⟩,
        (UnitContext.length_flags_modify _).trans hlength, ?_, hsettled, rfl⟩
      intro j
      show (c.context.noteReleased id).flagsOf j = ctx.flagsOf j
      rw [UnitContext.noteReleased, UnitContext.flagsOf_modify _ hbound, hflags]
      -- the flag that is set was set by the first pass
      by_cases hj : j = id
      · subst hj
        rw [if_pos rfl, ← hreleased j hrole]
      · rw [if_neg hj]
    | obtain id =>
      simp only [hflags, hsettled]
      split_ifs with hleaky
      · obtain ⟨kind, hkind⟩ : ∃ kind, t.kind? id = some kind :=
          ⟨_, List.getElem?_eq_getElem (lt_of_classify_obtain hrole)⟩
        have hsame : SameButReports c (c.report unit placed.site id .leaked) :=
          report_sameButReports placed.site .leaked
        rw [hkind]
        refine ⟨report_shows h hkind placed.site .leaked, ?_, ?_, hsame.settled.trans hsettled,
          hsame.aborted⟩
        · rw [hsame.flags, hlength]
        · intro j
          rw [UnitContext.flagsOf_congr hsame.flags, hflags]
      · exact ⟨h, hlength, hflags, hsettled, rfl⟩

theorem foldl_coarseCall {ctx : UnitContext} {calls : List PlacedCall}
    (h : c.Shows t options unit fs) (hlength : c.context.flags.length = t.kinds.length)
    (hflags : ∀ id, c.context.flagsOf id = ctx.flagsOf id)
    (hsettled : c.context.settled = ctx.settled)
    (hreleased : ∀ placed ∈ calls, ∀ id, t.classify placed.call = some (.release id) →
      (ctx.flagsOf id).released = true) :
    (calls.foldl (coarseCall unit) c).Shows t options unit
        ((calls.filterMap (coarseFinding? t ctx)).foldl noteFinding fs) ∧
      (calls.foldl (coarseCall unit) c).context.aborted = c.context.aborted := by
  induction calls generalizing c fs with
  | nil => exact ⟨h, rfl⟩
  | cons placed calls ih =>
    obtain ⟨h', hlength', hflags', hsettled', haborted⟩ := coarseCall_spec h hlength hflags hsettled
      (hreleased placed List.mem_cons_self)
    obtain ⟨hshows, haborted'⟩ := ih h' hlength' hflags' hsettled'
      fun other hother => hreleased other (List.mem_cons_of_mem placed hother)
    refine ⟨?_, haborted'.trans haborted⟩
    rw [List.filterMap_cons]
    cases hfinding : coarseFinding? t ctx placed with
    | none =>
      rw [hfinding] at hshows
      exact hshows
    | some x =>
      rw [hfinding] at hshows
      exact hshows

/-! ## The end of the precise pass -/

/-- After the first pass a second one is asked for if some kind looks leaky. -/
theorem afterUnit_scanning (hphase : c.phase = .scanning)
    (hrequested : c.context.rescanRequested = false) :
    c.afterUnit = if c.context.needsRescan then
      ({ c with phase := .maybeRescan, context := { c.context with rescanRequested := true } },
        true)
    else ({ c with phase := .done }, false) := by
  unfold afterUnit
  rw [hphase, hrequested, Bool.not_false, Bool.and_true]

end Checker

end PoolLint

import PoolLint.Proofs.Check.Passes
import PoolLint.Proofs.Resource.Names

/-!
# What is reported about a class

The passes share flags, settled places and the findings reported so far, and the second pass is
made only if the first one asks for it. What comes out of this can be said without any of it
(`ToReport`): which calls obtain an instance of which kind, what the precise check of each says,
and which kinds are released at all. `checkUnit_findings` states that exactly this is reported,
each finding once.
-/

namespace PoolLint

open PoolLint.Bytecode PoolLint.Flow

/-! ## The specification -/

/-- What a class is to be reported for: where, with which code, and for which kind. -/
inductive ToReport (t : ResourceTable) (options : CheckOptions) (unit : ClassFile) :
    Site → FindingKind → ResourceKind → Prop
  /-- The precise check says that the instance is leaked. -/
  | leaked {j i id : Nat} {kind : ResourceKind} {m : Method} {report : FlowReport}
      (obtained : ObtainedAt t unit j i id kind m) (checked : kind.flowChecked = true)
      (outcome : checkMethodFlow m i kind = .ok report) (verdict : report.verdict = .leaked) :
      ToReport t options unit (j, i) .leaked kind
  /-- A precise check lists the call as a use after release, and none of an instance obtained
  earlier in the method does. -/
  | alreadyRecycled {j i id c : Nat} {kind : ResourceKind} {m : Method} {report : FlowReport}
      (obtained : ObtainedAt t unit j i id kind m) (checked : kind.flowChecked = true)
      (outcome : checkMethodFlow m i kind = .ok report) (listed : c ∈ report.doubleReleases)
      (first : ∀ i' id' kind' m' report', i' < i → ObtainedAt t unit j i' id' kind' m' →
        kind'.flowChecked = true → checkMethodFlow m' i' kind' = .ok report' →
          c ∉ report'.doubleReleases) :
      ToReport t options unit (j, c) .alreadyRecycled kind
  /-- The kind is not followed through methods, and no call of the class releases it. -/
  | unreleased {j i id : Nat} {kind : ResourceKind} {m : Method}
      (rescan : options.rescan = true) (obtained : ObtainedAt t unit j i id kind m)
      (unchecked : kind.flowChecked = false) (unreleased : ¬ReleasedIn t unit id) :
      ToReport t options unit (j, i) .leaked kind

/-- The precise check at this place is given up. -/
def CheckFails (t : ResourceTable) (unit : ClassFile) (j i : Nat) : Prop :=
  ∃ id kind m e, ObtainedAt t unit j i id kind m ∧ kind.flowChecked = true ∧
    checkMethodFlow m i kind = .error e

/-- The kind is obtained and nowhere released, and no precise check has come to a conclusion
about an instance. -/
structure Suspect (t : ResourceTable) (unit : ClassFile) (id : Nat) (kind : ResourceKind) :
    Prop where
  obtained : ∃ j i m, ObtainedAt t unit j i id kind m
  unreleased : ¬ReleasedIn t unit id
  unhandled : kind.flowChecked = false ∨ ∀ j i m, ObtainedAt t unit j i id kind m →
    ∃ e, checkMethodFlow m i kind = .error e

/-- What the diagnostic of a finding says: its code, the instruction of the class where it is, and
the kind that it is about. -/
structure Finding.ToldBy (options : CheckOptions) (unit : ClassFile) (x : Finding)
    (d : Diagnostic) : Prop where
  severity : d.severity = options.severity
  code : d.code = match x.code with
    | .leaked => "R0001"
    | .alreadyRecycled => "R0002"
  location : ∃ m, unit.methods[x.site.1]? = some m ∧ d.location =
    some ⟨unit.sourceFile, unit.name, m.name ++ m.desc, x.site.2, m.line? x.site.2⟩
  resource : d.resource = some x.kind.name

/-- An account of the check of a class: the findings, and the places where the precise check is
given up. -/
structure UnitReport.Accounts (r : UnitReport) (t : ResourceTable) (options : CheckOptions)
    (unit : ClassFile) (findings : List Finding) (failed : List Site) : Prop where
  diagnostics : r.diagnostics = Diagnostic.sort (findings.map (Finding.diagnostic t options unit))
  once : (findings.map Finding.key).Nodup
  exactly : ∀ x, x ∈ findings ↔ ToReport t options unit x.site x.code x.kind
  told : ∀ x ∈ findings, x.ToldBy options unit (x.diagnostic t options unit)
  failedOnce : failed.Nodup
  failedExactly : ∀ j i, (j, i) ∈ failed ↔ CheckFails t unit j i
  aborted : r.aborted = failed.length
  /-- Nothing is said about an instance whose check is given up. -/
  silent : ∀ x ∈ findings, x.site ∈ failed → x.code ≠ .leaked
  rescanned : r.rescanned = true ↔ options.rescan = true ∧ ∃ id kind, Suspect t unit id kind

variable {t : ResourceTable} {options : CheckOptions} {unit : ClassFile} {c : Checker}

/-! ## The findings of the precise pass -/

theorem FlowOutcome.failed_iff {o : FlowOutcome} :
    o.failed = true ↔ ∃ e, o.result = .error e := by
  unfold FlowOutcome.failed
  cases o.result with
  | error e => simp
  | ok report => simp

/-- What is to be reported after a precise check, seen from the place where the instance is
obtained. -/
theorem mem_outcomeFindings {o : FlowOutcome} (ho : o ∈ flowOutcomes t unit) {x : Finding} :
    x ∈ outcomeFindings t o ↔ ∃ kind m report,
      ObtainedAt t unit o.job.site.1 o.job.site.2 o.job.kind kind m ∧
      kind.flowChecked = true ∧ checkMethodFlow m o.job.site.2 kind = .ok report ∧
        x ∈ reportFindings o.job.site kind report := by
  obtain ⟨kind, m, hobtained, hchecked, hresult⟩ := mem_flowOutcomes.1 ho
  unfold outcomeFindings
  rw [hobtained.kind, hresult]
  constructor
  · intro hx
    cases hflow : checkMethodFlow m o.job.site.2 kind with
    | error e =>
      rw [hflow] at hx
      cases hx
    | ok report =>
      rw [hflow] at hx
      exact ⟨kind, m, report, hobtained, hchecked, hflow, hx⟩
  · rintro ⟨kind', m', report, hobtained', -, hflow, hx⟩
    obtain ⟨-, rfl, rfl⟩ := hobtained.unique hobtained'
    rw [hflow]
    exact hx

theorem kind_of_mem_reportFindings {site : Site} {kind : ResourceKind} {report : FlowReport}
    {x : Finding} (h : x ∈ reportFindings site kind report) : x.kind = kind := by
  unfold reportFindings at h
  rcases List.mem_append.1 h with hreleased | hleaked
  · obtain ⟨i, -, rfl⟩ := List.mem_map.1 hreleased
    rfl
  · split_ifs at hleaked
    · rw [List.mem_singleton.1 hleaked]
    · cases hleaked

theorem mem_reportFindings_leaked {site place : Site} {kind kind' : ResourceKind}
    {report : FlowReport} : ⟨place, .leaked, kind'⟩ ∈ reportFindings site kind report ↔
      place = site ∧ kind' = kind ∧ report.verdict = .leaked := by
  unfold reportFindings
  rw [List.mem_append, List.mem_map]
  split_ifs with hleaked
  · simp [hleaked]
  · simp [hleaked]

theorem mem_reportFindings_alreadyRecycled {site place : Site} {kind kind' : ResourceKind}
    {report : FlowReport} : ⟨place, .alreadyRecycled, kind'⟩ ∈ reportFindings site kind report ↔
      place.1 = site.1 ∧ kind' = kind ∧ place.2 ∈ report.doubleReleases := by
  unfold reportFindings
  obtain ⟨j, i⟩ := place
  rw [List.mem_append, List.mem_map]
  have hnone : (⟨(j, i), .alreadyRecycled, kind'⟩ : Finding) ∉
      (if report.verdict = .leaked then [⟨site, .leaked, kind⟩] else [] : List Finding) := by
    split_ifs
    · simp
    · exact List.not_mem_nil
  rw [or_iff_left hnone]
  constructor
  · rintro ⟨k, hk, heq⟩
    obtain ⟨hplace, -, rfl⟩ := Finding.mk.inj heq
    obtain ⟨rfl, rfl⟩ := Prod.mk.inj hplace
    exact ⟨rfl, rfl, hk⟩
  · rintro ⟨hj, rfl, hi⟩
    exact ⟨i, hi, by rw [← hj]⟩

/-- A finding comes up first at its place with its code if no other one has both. -/
theorem find?_key_of_mem {xs : List Finding} {x : Finding} (hx : x ∈ xs)
    (h : ∀ y ∈ xs, y.key = x.key → y = x) : xs.find? (·.key = x.key) = some x := by
  cases hfound : xs.find? (·.key = x.key) with
  | none => exact absurd (decide_eq_true rfl) (List.find?_eq_none.1 hfound x hx)
  | some y =>
    have hkey := List.find?_some hfound
    rw [h y (List.mem_of_find?_eq_some hfound) (of_decide_eq_true hkey)]

/-- A check lists a call as a use after release. -/
theorem mem_outcomeFindings_alreadyRecycled {o : FlowOutcome} (ho : o ∈ flowOutcomes t unit)
    {place : Site} {kind : ResourceKind} :
    ⟨place, .alreadyRecycled, kind⟩ ∈ outcomeFindings t o ↔ place.1 = o.job.site.1 ∧
      ∃ m report, ObtainedAt t unit o.job.site.1 o.job.site.2 o.job.kind kind m ∧
        kind.flowChecked = true ∧ checkMethodFlow m o.job.site.2 kind = .ok report ∧
          place.2 ∈ report.doubleReleases := by
  rw [mem_outcomeFindings ho]
  constructor
  · rintro ⟨kind', m, report, hat, hchecked, hflow, hmem⟩
    obtain ⟨hmethod, rfl, hlisted⟩ := mem_reportFindings_alreadyRecycled.1 hmem
    exact ⟨hmethod, m, report, hat, hchecked, hflow, hlisted⟩
  · rintro ⟨hmethod, m, report, hat, hchecked, hflow, hlisted⟩
    exact ⟨kind, m, report, hat, hchecked, hflow,
      mem_reportFindings_alreadyRecycled.2 ⟨hmethod, rfl, hlisted⟩⟩

/-- The findings of one check are all about one kind, so no two agree in place and code. -/
theorem find?_outcomeFindings {o : FlowOutcome} (ho : o ∈ flowOutcomes t unit) {x : Finding}
    (hx : x ∈ outcomeFindings t o) : (outcomeFindings t o).find? (·.key = x.key) = some x := by
  refine find?_key_of_mem hx ?_
  intro y hy hkey
  obtain ⟨kind, m, report, hat, -, -, hmem⟩ := (mem_outcomeFindings ho).1 hx
  obtain ⟨kind', m', report', hat', -, -, hmem'⟩ := (mem_outcomeFindings ho).1 hy
  obtain ⟨-, rfl, -⟩ := hat.unique hat'
  have hkind : y.kind = x.kind :=
    (kind_of_mem_reportFindings hmem').trans (kind_of_mem_reportFindings hmem).symm
  obtain ⟨hsite, hcode⟩ := Prod.mk.inj hkey
  exact Finding.ext hsite hcode hkind

/-! ## The findings of the coarse pass -/

theorem any_obtain_iff {id : Nat} :
    ((classCalls unit).any fun placed =>
      decide (t.classify placed.call = some (.obtain id))) = true ↔
      ∃ j i kind m, ObtainedAt t unit j i id kind m := by
  rw [List.any_eq_true]
  constructor
  · rintro ⟨⟨⟨j, i⟩, call⟩, hmem, hrole⟩
    exact ⟨j, i, obtainedAt_iff.2 ⟨call, hmem, of_decide_eq_true hrole⟩⟩
  · rintro ⟨j, i, hobtained⟩
    obtain ⟨call, hmem, hrole⟩ := obtainedAt_iff.1 hobtained
    exact ⟨_, hmem, decide_eq_true hrole⟩

theorem any_release_iff {id : Nat} :
    ((classCalls unit).any fun placed =>
      decide (t.classify placed.call = some (.release id))) = true ↔ ReleasedIn t unit id := by
  rw [List.any_eq_true, releasedIn_iff]
  simp only [decide_eq_true_eq]

/-- A kind is not handled if all checks of its instances are given up. -/
theorem any_handled_eq_false_iff {id : Nat} :
    ((flowOutcomes t unit).any fun o => !o.failed && decide (o.job.kind = id)) = false ↔
      ∀ j i kind m, ObtainedAt t unit j i id kind m → kind.flowChecked = true →
        ∃ e, checkMethodFlow m i kind = .error e := by
  rw [List.any_eq_false]
  constructor
  · intro hall j i kind m hat hchecked
    have hmem : (⟨⟨(j, i), id⟩, checkMethodFlow m i kind⟩ : FlowOutcome) ∈
        flowOutcomes t unit := mem_flowOutcomes.2 ⟨kind, m, hat, hchecked, rfl⟩
    have hnot := hall _ hmem
    rw [decide_eq_true (rfl : id = id), Bool.and_true, Bool.not_eq_true,
      Bool.not_eq_false'] at hnot
    exact FlowOutcome.failed_iff.1 hnot
  · intro hall o ho
    obtain ⟨kind, m, hat, hchecked, hresult⟩ := mem_flowOutcomes.1 ho
    rw [Bool.and_eq_true, decide_eq_true_eq]
    rintro ⟨hsucceeded, rfl⟩
    obtain ⟨e, he⟩ := hall _ _ kind m hat hchecked
    rw [FlowOutcome.failed_iff.2 ⟨e, hresult.trans he⟩] at hsucceeded
    cases hsucceeded

/-- After the precise pass the flags show which kinds are suspect. -/
theorem Checker.Scanned.looksLeaky_iff (hc : c.Scanned t options unit) {id : Nat} :
    (c.context.flagsOf id).looksLeaky = true ↔ ∃ kind, Suspect t unit id kind := by
  rw [hc.flags, KindFlags.looksLeaky]
  simp only [Bool.and_eq_true, Bool.not_eq_true']
  rw [any_obtain_iff, any_handled_eq_false_iff, ← Bool.not_eq_true, any_release_iff, and_assoc]
  constructor
  · rintro ⟨⟨j, i, kind, m, hat⟩, hunreleased, hgivenUp⟩
    refine ⟨kind, ⟨j, i, m, hat⟩, hunreleased, ?_⟩
    cases hchecked : kind.flowChecked with
    | false => exact .inl rfl
    | true => exact .inr fun j' i' m' hat' => hgivenUp j' i' kind m' hat' hchecked
  · rintro ⟨kind, ⟨j, i, m, hat⟩, hunreleased, hunhandled⟩
    refine ⟨⟨j, i, kind, m, hat⟩, hunreleased, ?_⟩
    intro j' i' kind' m' hat' hchecked
    obtain rfl : kind = kind' := Option.some.inj (hat.kind.symm.trans hat'.kind)
    rcases hunhandled with hunchecked | hgivenUp
    · rw [hunchecked] at hchecked
      cases hchecked
    · exact hgivenUp j' i' m' hat'

theorem Checker.Scanned.needsRescan_iff (hc : c.Scanned t options unit) :
    c.context.needsRescan = true ↔ ∃ id kind, Suspect t unit id kind := by
  rw [UnitContext.needsRescan_iff]
  constructor
  · rintro ⟨id, -, hleaky⟩
    exact ⟨id, hc.looksLeaky_iff.1 hleaky⟩
  · rintro ⟨id, kind, hsuspect⟩
    obtain ⟨j, i, m, hat⟩ := hsuspect.obtained
    refine ⟨id, ?_, hc.looksLeaky_iff.2 ⟨kind, hsuspect⟩⟩
    rw [hc.length]
    exact (List.getElem?_eq_some_iff.1 hat.kind).1

theorem coarseFinding?_eq_some {ctx : UnitContext} {placed : PlacedCall} {x : Finding} :
    Checker.coarseFinding? t ctx placed = some x ↔ ∃ id kind,
      t.classify placed.call = some (.obtain id) ∧ (ctx.flagsOf id).looksLeaky = true ∧
        placed.site ∉ ctx.settled ∧ t.kind? id = some kind ∧ x = ⟨placed.site, .leaked, kind⟩ := by
  unfold Checker.coarseFinding?
  constructor
  · intro h
    split at h
    · rename_i id hrole
      split_ifs at h with hleaky
      obtain ⟨hlooks, hsettled⟩ := Bool.and_eq_true_iff.1 hleaky
      obtain ⟨kind, hkind, rfl⟩ := Option.map_eq_some_iff.1 h
      exact ⟨id, kind, hrole, hlooks, by simpa using hsettled, hkind, rfl⟩
    · cases h
  · rintro ⟨id, kind, hrole, hlooks, hsettled, hkind, rfl⟩
    rw [hrole]
    simp [hlooks, hsettled, hkind]

/-- In the coarse pass the kinds come up that are not followed through methods and not released
by any call of the class. -/
theorem Checker.Scanned.mem_coarse (hc : c.Scanned t options unit) {x : Finding} :
    x ∈ (classCalls unit).filterMap (coarseFinding? t c.context) ↔ x.code = .leaked ∧
      ∃ id m, ObtainedAt t unit x.site.1 x.site.2 id x.kind m ∧ x.kind.flowChecked = false ∧
        ¬ReleasedIn t unit id := by
  have hsettled : ∀ {j i id kind m}, ObtainedAt t unit j i id kind m →
      ((j, i) ∈ c.context.settled ↔ kind.flowChecked = true) := by
    intro j i id kind m hat
    rw [hc.settled]
    constructor
    · rintro ⟨o, ho, hsite⟩
      obtain ⟨kind', m', hat', hchecked, -⟩ := mem_flowOutcomes.1 ho
      rw [hsite] at hat'
      obtain ⟨-, rfl, -⟩ := hat.unique hat'
      exact hchecked
    · intro hchecked
      exact ⟨⟨⟨(j, i), id⟩, checkMethodFlow m i kind⟩,
        mem_flowOutcomes.2 ⟨kind, m, hat, hchecked, rfl⟩, rfl⟩
  rw [List.mem_filterMap]
  constructor
  · rintro ⟨⟨⟨j, i⟩, call⟩, hmem, hfinding⟩
    obtain ⟨id, kind, hrole, hleaky, hunsettled, hkind, rfl⟩ := coarseFinding?_eq_some.1 hfinding
    obtain ⟨m, hmethod, hcode⟩ := mem_classCalls.1 hmem
    have hat : ObtainedAt t unit j i id kind m := ⟨hmethod, ⟨call, hcode, hrole⟩, hkind⟩
    have hunchecked : kind.flowChecked = false := by
      rw [← Bool.not_eq_true, ← hsettled hat]
      exact hunsettled
    obtain ⟨_, hsuspect⟩ := hc.looksLeaky_iff.1 hleaky
    exact ⟨rfl, id, m, hat, hunchecked, hsuspect.unreleased⟩
  · obtain ⟨⟨j, i⟩, code, kind⟩ := x
    rintro ⟨rfl, id, m, hat, hunchecked, hunreleased⟩
    obtain ⟨call, hcode, hrole⟩ := hat.call
    have hleaky : (c.context.flagsOf id).looksLeaky = true :=
      hc.looksLeaky_iff.2 ⟨kind, ⟨j, i, m, hat⟩, hunreleased, .inl hunchecked⟩
    have hunsettled : (j, i) ∉ c.context.settled := by
      rw [hsettled hat, hunchecked]
      exact Bool.false_ne_true
    exact ⟨⟨(j, i), call⟩, mem_classCalls.2 ⟨m, hat.method, hcode⟩,
      coarseFinding?_eq_some.2 ⟨id, kind, hrole, hleaky, hunsettled, hat.kind, rfl⟩⟩

/-! ## Both passes -/

/-- All that comes up in the passes that are made, in order. -/
def allFindings (t : ResourceTable) (options : CheckOptions) (unit : ClassFile) (c : Checker) :
    List Finding :=
  (flowOutcomes t unit).flatMap (outcomeFindings t) ++
    if c.context.needsRescan && options.rescan then
      (classCalls unit).filterMap (Checker.coarseFinding? t c.context)
    else []

theorem Checker.afterUnit_collector (c : Checker) : c.afterUnit.1.collector = c.collector := by
  unfold afterUnit
  cases c.phase with
  | scanning => split_ifs <;> rfl
  | initial | maybeRescan | rescanning | done => rfl

theorem Checker.afterUnit_aborted (c : Checker) :
    c.afterUnit.1.context.aborted = c.context.aborted := by
  unfold afterUnit
  cases c.phase with
  | scanning => split_ifs <;> rfl
  | initial | maybeRescan | rescanning | done => rfl

/-- The state in which the second pass begins. -/
def Checker.rescanning (c : Checker) : Checker :=
  { c with phase := .rescanning, context := { c.context with rescanRequested := true } }

/-- What comes up in the second pass is reported after all that came up in the first. -/
theorem Checker.Scanned.coarsePass_shows (hc : c.Scanned t options unit) :
    (c.rescanning.coarsePass unit).Shows t options unit
        (((classCalls unit).filterMap (coarseFinding? t c.context)).foldl noteFinding
          (((flowOutcomes t unit).flatMap (outcomeFindings t)).foldl noteFinding [])) ∧
      (c.rescanning.coarsePass unit).context.aborted = c.context.aborted := by
  have hshows : c.rescanning.Shows t options unit
      (((flowOutcomes t unit).flatMap (outcomeFindings t)).foldl noteFinding []) :=
    ⟨hc.shows.usesTable, hc.shows.usesOptions, hc.shows.reported, hc.shows.submitted⟩
  have hreleased : ∀ placed ∈ classCalls unit, ∀ id,
      t.classify placed.call = some (.release id) → (c.context.flagsOf id).released = true := by
    intro placed hmem id hrole
    rw [hc.flags]
    exact List.any_eq_true.2 ⟨placed, hmem, decide_eq_true hrole⟩
  have hflags : ∀ id, c.rescanning.context.flagsOf id = c.context.flagsOf id := fun _ => rfl
  exact foldl_coarseCall hshows hc.length hflags rfl hreleased

/-- The outcome of a check in terms of the state after the precise pass. -/
theorem checkUnit_spec (options : CheckOptions) (unit : ClassFile) (ht : t.names.Nodup) :
    ∃ c, Checker.Scanned t options unit c ∧
    (checkUnit t options unit).rescanned = (c.context.needsRescan && options.rescan) ∧
    (checkUnit t options unit).aborted = c.context.aborted ∧
    (checkUnit t options unit).diagnostics = Diagnostic.sort
      (((allFindings t options unit c).foldl noteFinding []).map
        (Finding.diagnostic t options unit)) := by
  have hscanned : Checker.Scanned t options unit ((Checker.new t options).beforeUnit.scan unit) :=
    Checker.precisePass_scanned ht
  refine ⟨_, hscanned, ?_⟩
  unfold checkUnit allFindings
  -- nothing but `hscanned` is needed of the first pass
  generalize (Checker.new t options).beforeUnit.scan unit = c at hscanned ⊢
  simp only [Checker.afterUnit_scanning hscanned.phase hscanned.requested]
  cases hsecond : c.context.needsRescan && options.rescan with
  | false =>
    have hfinish : c.finish = Diagnostic.sort
        ((((flowOutcomes t unit).flatMap (outcomeFindings t)).foldl noteFinding []).map
          (Finding.diagnostic t options unit)) := by
      unfold Checker.finish Collector.sorted
      rw [hscanned.shows.submitted]
    rw [if_neg Bool.false_ne_true, List.append_nil, ← hfinish]
    cases hneeds : c.context.needsRescan with
    | false => exact ⟨rfl, rfl, rfl⟩
    | true =>
      rw [hneeds, Bool.true_and] at hsecond
      simp only [hsecond]
      exact ⟨rfl, rfl, rfl⟩
  | true =>
    obtain ⟨hneeds, hrescan⟩ := Bool.and_eq_true_iff.1 hsecond
    obtain ⟨hcoarse, haborted⟩ := hscanned.coarsePass_shows
    rw [← List.foldl_append] at hcoarse
    simp only [hneeds, hrescan, Bool.and_self, if_true, Checker.beginRescan, and_self]
    refine ⟨trivial, ?_, ?_⟩
    · rw [Checker.afterUnit_aborted]
      exact haborted
    · unfold Checker.finish Collector.sorted
      rw [Checker.afterUnit_collector]
      exact congrArg Diagnostic.sort hcoarse.submitted

/-! ## What comes up first -/

section First

variable {x y : Finding}

theorem mem_allFindings_leaked (hc : c.Scanned t options unit) (hx : x.code = .leaked) :
    x ∈ allFindings t options unit c ↔ ToReport t options unit x.site x.code x.kind := by
  obtain ⟨⟨j, i⟩, code, kind⟩ := x
  obtain rfl : code = .leaked := hx
  unfold allFindings
  rw [List.mem_append]
  constructor
  · rintro (hprecise | hcoarse)
    · obtain ⟨o, ho, hmem⟩ := List.mem_flatMap.1 hprecise
      obtain ⟨kind', m, report, hat, hchecked, hflow, hmem⟩ := (mem_outcomeFindings ho).1 hmem
      obtain ⟨hsite, rfl, hleaked⟩ := mem_reportFindings_leaked.1 hmem
      rw [← hsite] at hat hflow
      exact .leaked hat hchecked hflow hleaked
    · split_ifs at hcoarse with hsecond
      · obtain ⟨-, id, m, hat, hunchecked, hunreleased⟩ := hc.mem_coarse.1 hcoarse
        exact .unreleased (Bool.and_eq_true_iff.1 hsecond).2 hat hunchecked hunreleased
      · cases hcoarse
  · intro h
    cases h with
    | @leaked _ _ id _ m report hat hchecked hflow hleaked =>
      have ho : (⟨⟨(j, i), id⟩, checkMethodFlow m i kind⟩ : FlowOutcome) ∈
          flowOutcomes t unit := mem_flowOutcomes.2 ⟨kind, m, hat, hchecked, rfl⟩
      refine .inl (List.mem_flatMap.2 ⟨_, ho, (mem_outcomeFindings ho).2 ?_⟩)
      exact ⟨kind, m, report, hat, hchecked, hflow,
        mem_reportFindings_leaked.2 ⟨rfl, rfl, hleaked⟩⟩
    | @unreleased _ _ id _ m hrescan hat hunchecked hunreleased =>
      have hneeds : c.context.needsRescan = true :=
        hc.needsRescan_iff.2 ⟨id, kind, ⟨j, i, m, hat⟩, hunreleased, .inl hunchecked⟩
      right
      rw [hneeds, hrescan, Bool.and_self, if_pos rfl]
      exact hc.mem_coarse.2 ⟨rfl, id, m, hat, hunchecked, hunreleased⟩

theorem ToReport.obtained {site : Site} {kind : ResourceKind}
    (h : ToReport t options unit site .leaked kind) :
    ∃ id m, ObtainedAt t unit site.1 site.2 id kind m := by
  cases h with
  | leaked hat => exact ⟨_, _, hat⟩
  | unreleased _ hat => exact ⟨_, _, hat⟩

/-- Leaks agree if they agree in place, so the first to come up is the only one. -/
theorem mem_findings_leaked (hc : c.Scanned t options unit) (hx : x.code = .leaked) :
    x ∈ (allFindings t options unit c).foldl noteFinding [] ↔
      ToReport t options unit x.site x.code x.kind := by
  rw [mem_foldl_noteFinding, ← mem_allFindings_leaked hc hx, or_iff_right List.not_mem_nil,
    List.map_nil, and_iff_right List.not_mem_nil]
  constructor
  · exact List.mem_of_find?_eq_some
  · intro hmem
    refine find?_key_of_mem hmem ?_
    intro y hy hkey
    obtain ⟨hsite, hcode⟩ := Prod.mk.inj hkey
    -- both tell that the instance is obtained at one place, which fixes its kind
    have hreport := (mem_allFindings_leaked hc hx).1 hmem
    have hreport' := (mem_allFindings_leaked hc (hcode.trans hx)).1 hy
    rw [hx] at hreport
    rw [hcode, hx, hsite] at hreport'
    obtain ⟨id, m, hat⟩ := hreport.obtained
    obtain ⟨id', m', hat'⟩ := hreport'.obtained
    exact Finding.ext hsite hcode (hat'.unique hat).2.1

/-- The coarse pass reports no uses after release. -/
theorem find?_coarse (hc : c.Scanned t options unit) (hx : x.code = .alreadyRecycled) :
    (if c.context.needsRescan && options.rescan then
      (classCalls unit).filterMap (Checker.coarseFinding? t c.context) else []).find?
        (·.key = x.key) = none := by
  refine List.find?_eq_none.2 ?_
  intro y hy hkey
  split_ifs at hy
  · have hcode := (Prod.mk.inj (of_decide_eq_true hkey)).2
    rw [(hc.mem_coarse.1 hy).1, hx] at hcode
    cases hcode
  · cases hy

/-- Of the uses after release at one call, the first to come up is that of the instance obtained
first. -/
theorem mem_findings_alreadyRecycled (hc : c.Scanned t options unit)
    (hx : x.code = .alreadyRecycled) :
    x ∈ (allFindings t options unit c).foldl noteFinding [] ↔
      ToReport t options unit x.site x.code x.kind := by
  obtain ⟨⟨j, i⟩, code, kind⟩ := x
  obtain rfl : code = .alreadyRecycled := hx
  rw [mem_foldl_noteFinding, or_iff_right List.not_mem_nil, List.map_nil,
    and_iff_right List.not_mem_nil, allFindings, List.find?_append, find?_coarse hc rfl,
    Option.or_none, List.find?_flatMap, List.findSome?_eq_some_iff]
  constructor
  · rintro ⟨before, o, after, hsplit, hfound, hnone⟩
    have ho : o ∈ flowOutcomes t unit := by
      rw [hsplit]
      exact List.mem_append_right _ List.mem_cons_self
    obtain ⟨hmethod, m, report, hat, hchecked, hflow, hlisted⟩ :=
      (mem_outcomeFindings_alreadyRecycled ho).1 (List.mem_of_find?_eq_some hfound)
    obtain rfl : j = o.job.site.1 := hmethod
    refine .alreadyRecycled hat hchecked hflow hlisted ?_
    intro i' id' kind' m' report' hearlier hat' hchecked' hflow' hlisted'
    -- an earlier check that lists the call would have been found instead of `o`
    let o' : FlowOutcome := ⟨⟨(o.job.site.1, i'), id'⟩, checkMethodFlow m' i' kind'⟩
    have ho' : o' ∈ flowOutcomes t unit :=
      mem_flowOutcomes.2 ⟨kind', m', hat', hchecked', rfl⟩
    have hmem : ⟨(o.job.site.1, i), .alreadyRecycled, kind'⟩ ∈ outcomeFindings t o' :=
      (mem_outcomeFindings_alreadyRecycled ho').2
        ⟨rfl, m', report', hat', hchecked', hflow', hlisted'⟩
    have hbefore : o' ∈ before := (mem_before_iff hsplit).2 ⟨ho', .inr ⟨rfl, hearlier⟩⟩
    exact List.find?_eq_none.1 (hnone o' hbefore) _ hmem (decide_eq_true rfl)
  · intro h
    cases h with
    | @alreadyRecycled _ i₀ id _ _ m report hat hchecked hflow hlisted hfirst =>
      let o : FlowOutcome := ⟨⟨(j, i₀), id⟩, checkMethodFlow m i₀ kind⟩
      have ho : o ∈ flowOutcomes t unit := mem_flowOutcomes.2 ⟨kind, m, hat, hchecked, rfl⟩
      have hmem : ⟨(j, i), .alreadyRecycled, kind⟩ ∈ outcomeFindings t o :=
        (mem_outcomeFindings_alreadyRecycled ho).2
          ⟨rfl, m, report, hat, hchecked, hflow, hlisted⟩
      obtain ⟨before, after, hsplit⟩ := List.append_of_mem ho
      refine ⟨before, o, after, hsplit, find?_outcomeFindings ho hmem, ?_⟩
      intro o' ho'
      obtain ⟨hmem', hbefore⟩ := (mem_before_iff hsplit).1 ho'
      refine List.find?_eq_none.2 ?_
      rintro ⟨place, code, kind'⟩ hy hkey
      obtain ⟨rfl, rfl⟩ := Prod.mk.inj (of_decide_eq_true hkey)
      obtain ⟨hmethod, m', report', hat', hchecked', hflow', hlisted'⟩ :=
        (mem_outcomeFindings_alreadyRecycled hmem').1 hy
      have hearlier : o'.job.site.2 < i₀ := by
        have hplaces : o'.job.site.1 < j ∨ o'.job.site.1 = j ∧ o'.job.site.2 < i₀ := hbefore
        have hsame : j = o'.job.site.1 := hmethod
        omega
      obtain rfl : j = o'.job.site.1 := hmethod
      exact hfirst _ _ _ _ _ hearlier hat' hchecked' hflow' hlisted'

theorem mem_findings (hc : c.Scanned t options unit) :
    x ∈ (allFindings t options unit c).foldl noteFinding [] ↔
      ToReport t options unit x.site x.code x.kind := by
  cases hx : x.code with
  | leaked => rw [mem_findings_leaked hc hx, hx]
  | alreadyRecycled => rw [mem_findings_alreadyRecycled hc hx, hx]

end First

/-! ## What is reported -/

theorem mem_failed {j i : Nat} :
    (j, i) ∈ ((flowOutcomes t unit).filter (·.failed)).map (·.job.site) ↔
      CheckFails t unit j i := by
  rw [List.mem_map]
  constructor
  · rintro ⟨o, hmem, hsite⟩
    obtain ⟨ho, hfailed⟩ := List.mem_filter.1 hmem
    obtain ⟨kind, m, hat, hchecked, hresult⟩ := mem_flowOutcomes.1 ho
    obtain ⟨e, he⟩ := FlowOutcome.failed_iff.1 hfailed
    rw [hsite] at hat hresult
    exact ⟨_, kind, m, e, hat, hchecked, hresult.symm.trans he⟩
  · rintro ⟨id, kind, m, e, hat, hchecked, he⟩
    refine ⟨⟨⟨(j, i), id⟩, .error e⟩, List.mem_filter.2 ⟨?_, rfl⟩, rfl⟩
    exact mem_flowOutcomes.2 ⟨kind, m, hat, hchecked, he.symm⟩

theorem CheckFails.not_leaked {j i : Nat} {kind : ResourceKind} (h : CheckFails t unit j i) :
    ¬ToReport t options unit (j, i) .leaked kind := by
  obtain ⟨id, kind', m, e, hat, hchecked, he⟩ := h
  intro hreport
  cases hreport with
  | leaked hat' _ hflow =>
    obtain ⟨-, rfl, rfl⟩ := hat.unique hat'
    rw [he] at hflow
    cases hflow
  | unreleased _ hat' hunchecked =>
    obtain ⟨-, rfl, -⟩ := hat.unique hat'
    rw [hchecked] at hunchecked
    cases hunchecked

/-- What is to be reported is in a method of the class. -/
theorem ToReport.exists_method {site : Site} {code : FindingKind} {kind : ResourceKind}
    (h : ToReport t options unit site code kind) : ∃ m, unit.methods[site.1]? = some m := by
  cases h with
  | leaked hat => exact ⟨_, hat.method⟩
  | alreadyRecycled hat => exact ⟨_, hat.method⟩
  | unreleased _ hat => exact ⟨_, hat.method⟩

theorem ToReport.toldBy {x : Finding} (h : ToReport t options unit x.site x.code x.kind) :
    x.ToldBy options unit (x.diagnostic t options unit) := by
  obtain ⟨m, hm⟩ := h.exists_method
  rw [Finding.diagnostic_eq]
  refine ⟨rfl, ?_, ⟨m, hm, ?_⟩, rfl⟩
  · cases x.code <;> rfl
  · rw [hm, Option.map_some]
    rfl

/-- A check of a class reports what is to be reported and nothing else, each finding once. A
check that is given up is counted and never ends in a leak, and the second pass is made exactly
if it is allowed and some kind is suspect after the first. -/
theorem checkUnit_findings (options : CheckOptions) (unit : ClassFile) (ht : t.names.Nodup) :
    ∃ findings failed,
      (checkUnit t options unit).Accounts t options unit findings failed := by
  obtain ⟨c, hc, hrescanned, haborted, hdiagnostics⟩ := checkUnit_spec options unit ht
  refine ⟨(allFindings t options unit c).foldl noteFinding [],
    ((flowOutcomes t unit).filter (·.failed)).map (·.job.site), ?_⟩
  constructor
  case diagnostics => exact hdiagnostics
  case once => exact nodup_foldl_noteFinding _ List.nodup_nil
  case exactly => exact fun x => mem_findings hc
  case told => exact fun x hx => ((mem_findings hc).1 hx).toldBy
  case failedOnce =>
    rw [List.Nodup, List.pairwise_map]
    exact ((flowOutcomes_sorted t unit).filter _).imp Site.Before.ne
  case failedExactly => exact fun j i => mem_failed
  case aborted => rw [haborted, hc.aborted, List.length_map, List.countP_eq_length_filter]
  case silent =>
    intro x hx hfailed hleaked
    have hreport := (mem_findings hc).1 hx
    rw [hleaked] at hreport
    exact (mem_failed.1 hfailed).not_leaked hreport
  case rescanned => rw [hrescanned, Bool.and_eq_true, hc.needsRescan_iff, and_comm]

/-- A class whose only method obtains a message and drops it. -/
def droppedMessage : ClassFile where
  name := "Sender"
  sourceFile := none
  methods := [{
    name := "send"
    desc := "()V"
    isStatic := true
    maxLocals := 0
    maxStack := none
    code := [.invoke ⟨.static, "android/os/Message", "obtain", "()Landroid/os/Message;"⟩, .pop,
      .ret]
    handlers := []
    lines := [] }]

set_option maxRecDepth 10000 in
/-- Messages are not followed through methods, so the leak is found in a second pass. -/
theorem checkUnit_findings_of_message :
    let t := ResourceTable.configured [] []
    let options : CheckOptions := ⟨false, true, .warning⟩
    t.names.Nodup ∧ ∃ findings failed,
      (checkUnit t options droppedMessage).Accounts t options droppedMessage findings failed ∧
        ⟨(0, 0), .leaked, ResourceTable.message⟩ ∈ findings ∧
          (checkUnit t options droppedMessage).rescanned = true := by
  intro t options
  have ht : t.names.Nodup := ResourceTable.nodup_names_configured [] []
  have hat : ∃ m, ObtainedAt t droppedMessage 0 0 2 ResourceTable.message m :=
    ⟨_, rfl, ⟨_, rfl, by decide⟩, by decide⟩
  have hunreleased : ¬ReleasedIn t droppedMessage 2 := by
    rw [releasedIn_iff]
    decide
  obtain ⟨m, hat⟩ := hat
  obtain ⟨findings, failed, h⟩ := checkUnit_findings options droppedMessage ht
  refine ⟨ht, findings, failed, h, (h.exactly _).2 (.unreleased rfl hat rfl hunreleased), ?_⟩
  exact h.rescanned.2 ⟨rfl, 2, _, ⟨0, 0, m, hat⟩, hunreleased, .inl rfl⟩

end PoolLint

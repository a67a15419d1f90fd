import Mathlib.Logic.Relation
import PoolLint.Proofs.Check.Findings

/-!
# A checker in the hands of its host

The host of a checker calls `beforeUnit`, `scan`, `afterUnit` and `beginRescan`, in whatever order
and with whatever classes. This file says what holds of a checker from one `beforeUnit` to the
next, which is called an epoch, for every sequence of such requests (`epoch_invariant`).

The passes are taken apart first. Whatever a pass does to a checker is a sequence of a few deeds
(`Deed`): flags are set, a place is settled, a failed check is counted, a finding is reported. The
coarse pass does only some of them. What a request can change is then read off the deeds.
-/

namespace PoolLint

open PoolLint.Bytecode PoolLint.Flow Relation

/-! ## Requests -/

/-- What a host asks of a checker. -/
inductive Request where
  | beforeUnit
  | scan (unit : ClassFile)
  | afterUnit
  | beginRescan
deriving DecidableEq, Repr

namespace Checker

/-- The checker after a request, and the answer; a request that has none is answered in the
negative. -/
def serve (c : Checker) : Request → Checker × Bool
  | .beforeUnit => (c.beforeUnit, false)
  | .scan unit => (c.scan unit, false)
  | .afterUnit => c.afterUnit
  | .beginRescan => c.beginRescan

/-- The checker after a sequence of requests. -/
def serveAll (c : Checker) (rs : List Request) : Checker :=
  rs.foldl (fun c r => (c.serve r).1) c

/-- How often a request is answered in the affirmative in the course of a sequence. -/
def granted (c : Checker) (asked : Request) : List Request → Nat
  | [] => 0
  | r :: rs =>
    (if r = asked ∧ (c.serve r).2 = true then 1 else 0) + (c.serve r).1.granted asked rs

end Checker

/-! ## What is kept and what may change -/

/-- The phases follow each other like this. -/
inductive Phase.Next : Phase → Phase → Prop
  | request : Next .scanning .maybeRescan
  | accept : Next .maybeRescan .rescanning
  | finish : Next .rescanning .done
  | satisfied : Next .scanning .done
  | decline : Next .maybeRescan .done

/-- How often a second pass may still be asked for. -/
def Phase.asksLeft : Phase → Nat
  | .scanning => 1
  | _ => 0

/-- How often one that was asked for may still be granted. -/
def Phase.acceptsLeft : Phase → Nat
  | .maybeRescan => 1
  | _ => 0

/-- A flag that is set stays set. -/
structure KindFlags.Le (f g : KindFlags) : Prop where
  obtained : f.obtained = true → g.obtained = true
  released : f.released = true → g.released = true
  handled : f.handled = true → g.handled = true

theorem KindFlags.Le.refl (f : KindFlags) : f.Le f :=
  ⟨id, id, id⟩

theorem KindFlags.Le.trans {f g k : KindFlags} (h : f.Le g) (h' : g.Le k) : f.Le k :=
  ⟨h'.obtained ∘ h.obtained, h'.released ∘ h.released, h'.handled ∘ h.handled⟩

/-- What is true of flags before and after a change at one position is true at all of them. -/
theorem UnitContext.flagsOf_modify_related {R : KindFlags → KindFlags → Prop} (hrefl : ∀ f, R f f)
    {g : KindFlags → KindFlags} (hg : ∀ f, R f (g f)) (ctx : UnitContext) (id j : Nat) :
    R (ctx.flagsOf j) ((ctx.modifyFlags id g).flagsOf j) := by
  unfold modifyFlags flagsOf
  simp only [List.getElem?_modify]
  cases ctx.flags[j]? with
  | none => exact hrefl _
  | some entry =>
    by_cases hj : id = j
    · simp only [if_pos hj]
      exact hg _
    · simp only [if_neg hj]
      exact hrefl _

namespace Checker

/-- The diagnostic reports the finding at the site, about some kind of the table. -/
def Reports (t : ResourceTable) (options : CheckOptions) (key : Site × FindingKind)
    (d : Diagnostic) : Prop :=
  ∃ unit, ∃ kind ∈ t.kinds, d = (⟨key.1, key.2, kind⟩ : Finding).diagnostic t options unit

/-- Since diagnostics `start` were submitted, there is one more for each entry of `reported`, in
the same order; the entries do not repeat. -/
structure Told (t : ResourceTable) (options : CheckOptions) (start : List Diagnostic)
    (c : Checker) : Prop where
  usesTable : c.table = t
  usesOptions : c.options = options
  submitted : ∃ ds, c.collector.submitted = start ++ ds ∧
    List.Forall₂ (Reports t options) c.context.reported ds
  once : c.context.reported.Nodup

/-- What a pass leaves alone, whatever else it does. -/
structure Noted (c c' : Checker) : Prop where
  table : c'.table = c.table
  options : c'.options = c.options
  phase : c'.phase = c.phase
  requested : c'.context.rescanRequested = c.context.rescanRequested
  length : c'.context.flags.length = c.context.flags.length
  flags : ∀ id, (c.context.flagsOf id).Le (c'.context.flagsOf id)

/-- What the precise checks have come to is the same. -/
structure SameConclusions (c c' : Checker) : Prop where
  settled : c'.context.settled = c.context.settled
  aborted : c'.context.aborted = c.context.aborted
  handled : ∀ id, (c'.context.flagsOf id).handled = (c.context.flagsOf id).handled

theorem Noted.refl (c : Checker) : Noted c c :=
  ⟨rfl, rfl, rfl, rfl, rfl, fun _ => .refl _⟩

theorem Noted.trans {c c' c'' : Checker} (h : Noted c c') (h' : Noted c' c'') : Noted c c'' :=
  ⟨h'.table.trans h.table, h'.options.trans h.options, h'.phase.trans h.phase,
    h'.requested.trans h.requested, h'.length.trans h.length,
    fun id => (h.flags id).trans (h'.flags id)⟩

theorem SameConclusions.refl (c : Checker) : SameConclusions c c :=
  ⟨rfl, rfl, fun _ => rfl⟩

theorem SameConclusions.trans {c c' c'' : Checker} (h : SameConclusions c c')
    (h' : SameConclusions c' c'') : SameConclusions c c'' :=
  ⟨h'.settled.trans h.settled, h'.aborted.trans h.aborted,
    fun id => (h'.handled id).trans (h.handled id)⟩

/-! ## What passes do -/

/-- One thing that a pass over a class does. The deeds that carry `true` are those of the precise
pass alone. -/
inductive Deed (unit : ClassFile) : Bool → Checker → Checker → Prop
  | released {precise : Bool} {c : Checker} (id : Nat) :
      Deed unit precise c (c.withContext (·.noteReleased id))
  | reported {precise : Bool} {c : Checker} (site : Site) (id : Nat) (finding : FindingKind)
      (hid : id < c.table.kinds.length) (hsite : site.1 < unit.methods.length) :
      Deed unit precise c (c.report unit site id finding)
  | obtained {c : Checker} (id : Nat) : Deed unit true c (c.withContext (·.noteObtained id))
  | handled {c : Checker} (id : Nat) : Deed unit true c (c.withContext (·.noteHandled id))
  | settled {c : Checker} (site : Site) : Deed unit true c
      (c.withContext fun ctx => { ctx with settled := insertNew site ctx.settled })
  | aborted {c : Checker} :
      Deed unit true c (c.withContext fun ctx => { ctx with aborted := ctx.aborted + 1 })

variable {unit : ClassFile} {precise : Bool} {c c' : Checker} {t : ResourceTable}
  {options : CheckOptions} {start : List Diagnostic}

theorem report_uses (unit : ClassFile) (site : Site) (id : Nat) (finding : FindingKind) :
    (c.report unit site id finding).table = c.table ∧
      (c.report unit site id finding).options = c.options := by
  unfold report
  split_ifs
  · exact ⟨rfl, rfl⟩
  · cases c.table.kind? id with
    | none => exact ⟨rfl, rfl⟩
    | some kind => exact ⟨rfl, rfl⟩

/-- Setting a flag is noted and changes nothing else. -/
theorem noted_modifyFlags {g : KindFlags → KindFlags} (hg : ∀ f : KindFlags, f.Le (g f))
    (id : Nat) : Noted c (c.withContext (·.modifyFlags id g)) :=
  ⟨rfl, rfl, rfl, rfl, UnitContext.length_flags_modify _,
    UnitContext.flagsOf_modify_related .refl hg c.context id⟩

theorem Deed.noted (h : Deed unit precise c c') : Noted c c' := by
  cases h with
  | released id =>
    exact noted_modifyFlags (g := fun flags => { flags with released := true })
      (fun f => ⟨fun h => h, fun _ => rfl, fun h => h⟩) id
  | reported site id finding hid hsite =>
    have hsame : SameButReports c (c.report unit site id finding) :=
      report_sameButReports site finding
    obtain ⟨htable, hoptions⟩ := report_uses (c := c) unit site id finding
    refine ⟨htable, hoptions, hsame.phase, hsame.requested, congrArg List.length hsame.flags, ?_⟩
    intro j
    rw [UnitContext.flagsOf_congr hsame.flags]
    exact .refl _
  | obtained id =>
    exact noted_modifyFlags (g := fun flags => { flags with obtained := true })
      (fun f => ⟨fun _ => rfl, fun h => h, fun h => h⟩) id
  | handled id =>
    exact noted_modifyFlags (g := fun flags => { flags with handled := true })
      (fun f => ⟨fun h => h, fun h => h, fun _ => rfl⟩) id
  | settled | aborted => exact ⟨rfl, rfl, rfl, rfl, rfl, fun _ => .refl _⟩

/-- What the coarse pass does as well leaves the conclusions alone. -/
theorem Deed.sameConclusions (h : Deed unit false c c') : SameConclusions c c' := by
  cases h with
  | released id =>
    refine ⟨rfl, rfl, ?_⟩
    exact UnitContext.flagsOf_modify_related (R := fun f g => g.handled = f.handled)
      (g := fun flags => { flags with released := true }) (fun _ => rfl) (fun _ => rfl) c.context id
  | reported site id finding hid hsite =>
    have hsame : SameButReports c (c.report unit site id finding) :=
      report_sameButReports site finding
    refine ⟨hsame.settled, hsame.aborted, ?_⟩
    intro j
    rw [UnitContext.flagsOf_congr hsame.flags]

/-- A finding that is reported anew has one diagnostic, and one that is a repetition has none. -/
theorem Told.report (h : c.Told t options start) (unit : ClassFile) (site : Site) {id : Nat}
    (finding : FindingKind) (hid : id < t.kinds.length) :
    (c.report unit site id finding).Told t options start := by
  have hkind : c.table.kind? id = some t.kinds[id] := by
    rw [h.usesTable]
    exact List.getElem?_eq_getElem hid
  unfold Checker.report
  split_ifs with hmem
  · exact h
  · rw [hkind]
    obtain ⟨ds, hds, hreports⟩ := h.submitted
    have hnew : Reports t options (site, finding) (c.diagnostic unit site t.kinds[id] finding) := by
      refine ⟨unit, t.kinds[id], List.getElem_mem hid, ?_⟩
      exact Finding.checker_diagnostic h.usesOptions t unit ⟨site, finding, t.kinds[id]⟩
    refine ⟨h.usesTable, h.usesOptions,
      ⟨ds ++ [c.diagnostic unit site t.kinds[id] finding], ?_, ?_⟩, ?_⟩
    · show c.collector.submitted ++ [c.diagnostic unit site t.kinds[id] finding] = _
      rw [hds, List.append_assoc]
    · exact List.rel_append hreports (.cons hnew .nil)
    · refine List.nodup_append.2 ⟨h.once, List.nodup_singleton _, ?_⟩
      intro key hkey key' hkey'
      rw [List.mem_singleton.1 hkey']
      exact ne_of_mem_of_not_mem hkey hmem

/-- Neither the phase nor a request for a second pass has to do with what is reported. -/
theorem Told.moved (h : c.Told t options start) (phase : Phase) (requested : Bool) :
    Told t options start { c with
      phase := phase, context := { c.context with rescanRequested := requested } } :=
  ⟨h.usesTable, h.usesOptions, h.submitted, h.once⟩

theorem Deed.told (h : Deed unit precise c c') (htold : c.Told t options start) :
    c'.Told t options start := by
  cases h with
  | reported site id finding hid hsite =>
    rw [htold.usesTable] at hid
    exact htold.report unit site finding hid
  | released | obtained | handled | settled | aborted =>
    exact ⟨htold.usesTable, htold.usesOptions, htold.submitted, htold.once⟩

/-- Several deeds, one after the other. -/
abbrev Deeds (unit : ClassFile) (precise : Bool) : Checker → Checker → Prop :=
  ReflTransGen (Deed unit precise)

theorem Deeds.noted (h : Deeds unit precise c c') : Noted c c' := by
  induction h with
  | refl => exact .refl c
  | tail _ hdeed ih => exact ih.trans hdeed.noted

theorem Deeds.sameConclusions (h : Deeds unit false c c') : SameConclusions c c' := by
  induction h with
  | refl => exact .refl c
  | tail _ hdeed ih => exact ih.trans hdeed.sameConclusions

theorem Deeds.told (h : Deeds unit precise c c') (htold : c.Told t options start) :
    c'.Told t options start := by
  induction h with
  | refl => exact htold
  | tail _ hdeed ih => exact hdeed.told ih

/-- What is done for each entry of a list with this table is done for all of them. -/
theorem foldl_deeds {α : Type} {f : Checker → α → Checker} (as : List α)
    (h : ∀ c a, c.table = t → a ∈ as → Deeds unit precise c (f c a)) (hc : c.table = t) :
    Deeds unit precise c (as.foldl f c) := by
  induction as generalizing c with
  | nil => exact .refl
  | cons a as ih =>
    have hhead := h c a hc List.mem_cons_self
    have htable : (f c a).table = t := hhead.noted.table.trans hc
    exact hhead.trans (ih (fun c b hc hb => h c b hc (List.mem_cons_of_mem a hb)) htable)

theorem record_deeds (o : FlowOutcome) (hid : o.job.kind < c.table.kinds.length)
    (hmethod : o.job.site.1 < unit.methods.length) : Deeds unit true c (record unit c o) := by
  unfold record
  have hsettled : Deeds unit true c (c.withContext fun ctx =>
      { ctx with settled := insertNew (o.job.site.1, o.job.site.2) ctx.settled }) :=
    .single (.settled o.job.site)
  cases o.result with
  | error e => exact hsettled.tail .aborted
  | ok report =>
    -- uses after release, then the leak, then the flag of the kind
    have hreport : ∀ (d : Checker) (i : Nat) (finding : FindingKind), d.table = c.table →
        Deeds unit true d (d.report unit (o.job.site.1, i) o.job.kind finding) := by
      intro d i finding hd
      rw [← hd] at hid
      exact .single (.reported (o.job.site.1, i) o.job.kind finding hid hmethod)
    have huses := hsettled.trans (foldl_deeds (t := c.table) report.doubleReleases
      (fun d i hd _ => hreport d i .alreadyRecycled hd) hsettled.noted.table)
    refine ReflTransGen.tail (huses.trans ?_) (.handled o.job.kind)
    split_ifs
    · exact hreport _ _ .leaked (Deeds.noted huses).table
    · exact .refl

theorem precisePass_deeds (unit : ClassFile) : Deeds unit true c (c.precisePass unit) := by
  unfold precisePass
  have hroles : Deeds unit true c ((classCalls unit).foldl
      (fun c placed => c.withContext (·.noteRole (c.table.classify placed.call))) c) := by
    refine foldl_deeds (t := c.table) _ ?_ rfl
    intro d placed _ _
    cases d.table.classify placed.call with
    | none => exact .refl
    | some role =>
      cases role with
      | obtain id => exact .single (.obtained id)
      | release id => exact .single (.released id)
  refine hroles.trans (foldl_deeds (t := c.table) _ ?_ hroles.noted.table)
  intro d o hd ho
  rw [hroles.noted.table] at ho
  obtain ⟨kind, m, hat, -⟩ := mem_flowOutcomes.1 ho
  have hid : o.job.kind < d.table.kinds.length := by
    rw [hd]
    exact (List.getElem?_eq_some_iff.1 hat.kind).1
  exact record_deeds o hid (List.getElem?_eq_some_iff.1 hat.method).1

theorem coarsePass_deeds (unit : ClassFile) : Deeds unit false c (c.coarsePass unit) := by
  unfold coarsePass
  refine foldl_deeds (t := c.table) _ ?_ rfl
  intro d placed _ hplaced
  obtain ⟨m, hmethod, -⟩ := mem_classCalls.1 hplaced
  unfold coarseCall
  cases hrole : d.table.classify placed.call with
  | none => exact .refl
  | some role =>
    cases role with
    | release id => exact .single (.released id)
    | obtain id =>
      simp only
      split_ifs
      · exact .single (.reported placed.site id .leaked (lt_of_classify_obtain hrole)
          (List.getElem?_eq_some_iff.1 hmethod).1)
      · exact .refl

/-- Outside of the two scanning phases a scan changes nothing. -/
theorem scan_ignored (unit : ClassFile) (hscanning : c.phase ≠ .scanning)
    (hrescanning : c.phase ≠ .rescanning) : c.scan unit = c := by
  unfold scan
  cases hphase : c.phase with
  | scanning => exact absurd hphase hscanning
  | rescanning => exact absurd hphase hrescanning
  | initial | maybeRescan | done => rfl

/-- A scan is a sequence of deeds, in the first phase those of the precise pass. -/
theorem scan_deeds (c : Checker) (unit : ClassFile) :
    Deeds unit (decide (c.phase = .scanning)) c (c.scan unit) := by
  unfold scan
  cases c.phase with
  | scanning => exact precisePass_deeds unit
  | rescanning => exact coarsePass_deeds unit
  | initial | maybeRescan | done => exact .refl

/-! ## One request -/

/-- A request is granted in two cases only, in which the phase moves on as the answer says. In all
other cases the phase stays as it is, or the checker is done with the class. -/
theorem serve_phase (c : Checker) {r : Request} (hr : r ≠ .beforeUnit) :
    (r = .afterUnit ∧ c.phase = .scanning ∧ (c.serve r).1.phase = .maybeRescan ∧
      (c.serve r).2 = true) ∨
    (r = .beginRescan ∧ c.phase = .maybeRescan ∧ (c.serve r).1.phase = .rescanning ∧
      (c.serve r).2 = true) ∨
    (c.serve r).2 = false ∧
      ((c.serve r).1.phase = c.phase ∨ c.phase.Next .done ∧ (c.serve r).1.phase = .done) := by
  cases r with
  | beforeUnit => exact absurd rfl hr
  | scan unit => exact .inr (.inr ⟨rfl, .inl (scan_deeds c unit).noted.phase⟩)
  | afterUnit =>
    unfold serve afterUnit
    cases hphase : c.phase with
    | scanning =>
      by_cases hasks : (c.context.needsRescan && !c.context.rescanRequested) = true
      · rw [if_pos hasks]
        exact .inl ⟨rfl, rfl, rfl, rfl⟩
      · rw [if_neg hasks]
        exact .inr (.inr ⟨rfl, .inr ⟨.satisfied, rfl⟩⟩)
    | maybeRescan => exact .inr (.inr ⟨rfl, .inr ⟨.decline, rfl⟩⟩)
    | rescanning => exact .inr (.inr ⟨rfl, .inr ⟨.finish, rfl⟩⟩)
    | initial | done => exact .inr (.inr ⟨rfl, .inl hphase⟩)
  | beginRescan =>
    unfold serve beginRescan
    split_ifs with hphase
    · exact .inr (.inl ⟨rfl, hphase.1, rfl, rfl⟩)
    · exact .inr (.inr ⟨rfl, .inl rfl⟩)

/-- What a request other than `beforeUnit` changes. -/
structure Advances (c c' : Checker) : Prop where
  phase : c'.phase = c.phase ∨ c.phase.Next c'.phase
  flags : ∀ id, (c.context.flagsOf id).Le (c'.context.flagsOf id)
  conclusions : c.phase ≠ .scanning → SameConclusions c c'

/-- The answers of `afterUnit` and `beginRescan` rest on phase and flags and leave both the flags
and the conclusions alone. -/
theorem afterUnit_context (c : Checker) : c.afterUnit.1.context.flags = c.context.flags ∧
    SameConclusions c c.afterUnit.1 := by
  unfold afterUnit
  cases c.phase with
  | scanning =>
    simp only
    split_ifs <;> exact ⟨rfl, rfl, rfl, fun _ => rfl⟩
  | initial | maybeRescan | rescanning | done => exact ⟨rfl, rfl, rfl, fun _ => rfl⟩

theorem beginRescan_context (c : Checker) : c.beginRescan.1.context = c.context := by
  unfold beginRescan
  split_ifs <;> rfl

theorem serve_advances (c : Checker) {r : Request} (hr : r ≠ .beforeUnit) :
    Advances c (c.serve r).1 := by
  refine ⟨?_, ?_, ?_⟩
  · rcases serve_phase c hr with ⟨-, hfrom, hto, -⟩ | ⟨-, hfrom, hto, -⟩ | ⟨-, hsame | ⟨hnext, hto⟩⟩
    · rw [hfrom, hto]
      exact .inr .request
    · rw [hfrom, hto]
      exact .inr .accept
    · exact .inl hsame
    · rw [hto]
      exact .inr hnext
  · intro id
    cases r with
    | beforeUnit => exact absurd rfl hr
    | scan unit => exact (scan_deeds c unit).noted.flags id
    | afterUnit =>
      show (c.context.flagsOf id).Le (c.afterUnit.1.context.flagsOf id)
      rw [UnitContext.flagsOf_congr (afterUnit_context c).1]
      exact .refl _
    | beginRescan =>
      show (c.context.flagsOf id).Le (c.beginRescan.1.context.flagsOf id)
      rw [beginRescan_context]
      exact .refl _
  · intro hphase
    cases r with
    | beforeUnit => exact absurd rfl hr
    | scan unit =>
      have hdeeds := scan_deeds c unit
      rw [decide_eq_false hphase] at hdeeds
      exact hdeeds.sameConclusions
    | afterUnit => exact (afterUnit_context c).2
    | beginRescan =>
      have hcontext : (c.serve .beginRescan).1.context = c.context := beginRescan_context c
      refine ⟨?_, ?_, ?_⟩
      · rw [hcontext]
      · rw [hcontext]
      · intro id
        rw [hcontext]

/-! ## An epoch -/

/-- What holds at every point of an epoch that was entered with diagnostics `start`. -/
structure InEpoch (t : ResourceTable) (options : CheckOptions) (start : List Diagnostic)
    (c : Checker) : Prop where
  told : c.Told t options start
  length : c.context.flags.length = t.kinds.length
  requested : c.phase = .maybeRescan ∨ c.phase = .rescanning → c.context.rescanRequested = true
  unrequested : c.phase = .initial ∨ c.phase = .scanning → c.context.rescanRequested = false

theorem inEpoch_beforeUnit (ht : t.names.Nodup) (htable : c.table = t)
    (hoptions : c.options = options) :
    c.beforeUnit.InEpoch t options c.collector.submitted := by
  subst htable
  refine ⟨⟨rfl, hoptions, ⟨[], (List.append_nil _).symm, .nil⟩, List.nodup_nil⟩,
    UnitContext.length_flags_new ht, ?_, fun _ => rfl⟩
  rintro (hphase | hphase)
  · cases hphase
  · cases hphase

theorem inEpoch_new (ht : t.names.Nodup) (options : CheckOptions) :
    (Checker.new t options).InEpoch t options [] := by
  refine ⟨⟨rfl, rfl, ⟨[], rfl, .nil⟩, List.nodup_nil⟩, UnitContext.length_flags_new ht, ?_,
    fun _ => rfl⟩
  rintro (hphase | hphase)
  · cases hphase
  · cases hphase

theorem InEpoch.scan (h : c.InEpoch t options start) (unit : ClassFile) :
    (c.scan unit).InEpoch t options start := by
  have hdeeds := scan_deeds c unit
  have hnoted := hdeeds.noted
  refine ⟨hdeeds.told h.told, hnoted.length.trans h.length, ?_, ?_⟩
  · rw [hnoted.phase, hnoted.requested]
    exact h.requested
  · rw [hnoted.phase, hnoted.requested]
    exact h.unrequested

theorem InEpoch.afterUnit (h : c.InEpoch t options start) :
    c.afterUnit.1.InEpoch t options start := by
  have hdone : ({ c with phase := .done } : Checker).InEpoch t options start := by
    refine ⟨h.told.moved .done _, h.length, ?_, ?_⟩
    · rintro (hphase | hphase) <;> cases hphase
    · rintro (hphase | hphase) <;> cases hphase
  unfold Checker.afterUnit
  cases hphase : c.phase with
  | scanning =>
    simp only
    split_ifs
    · refine ⟨h.told.moved .maybeRescan true, h.length, fun _ => rfl, ?_⟩
      rintro (hphase | hphase) <;> cases hphase
    · exact hdone
  | rescanning | maybeRescan => exact hdone
  | initial | done => exact h

theorem InEpoch.beginRescan (h : c.InEpoch t options start) :
    c.beginRescan.1.InEpoch t options start := by
  unfold Checker.beginRescan
  split_ifs with hphase
  · refine ⟨h.told.moved .rescanning _, h.length, fun _ => hphase.2, ?_⟩
    rintro (hphase | hphase) <;> cases hphase
  · exact h

theorem InEpoch.serve (h : c.InEpoch t options start) {r : Request} (hr : r ≠ .beforeUnit) :
    (c.serve r).1.InEpoch t options start := by
  cases r with
  | beforeUnit => exact absurd rfl hr
  | scan unit => exact h.scan unit
  | afterUnit => exact h.afterUnit
  | beginRescan => exact h.beginRescan

theorem InEpoch.serveAll (h : c.InEpoch t options start) {rs : List Request}
    (hrs : .beforeUnit ∉ rs) : (c.serveAll rs).InEpoch t options start := by
  induction rs generalizing c with
  | nil => exact h
  | cons r rs ih =>
    have hr : r ≠ .beforeUnit := fun heq => hrs (heq ▸ List.mem_cons_self)
    have hrest : .beforeUnit ∉ rs := fun hmem => hrs (List.mem_cons_of_mem r hmem)
    exact ih (h.serve hr) hrest

/-- At the end of the first pass a second one is asked for exactly if some kind is obtained, not
released and not handled. -/
theorem InEpoch.afterUnit_iff (h : c.InEpoch t options start) (hphase : c.phase = .scanning) :
    c.afterUnit.2 = true ↔ ∃ id < t.kinds.length, (c.context.flagsOf id).obtained = true ∧
      (c.context.flagsOf id).released = false ∧ (c.context.flagsOf id).handled = false := by
  have hanswer : c.afterUnit.2 = c.context.needsRescan := by
    rw [afterUnit_scanning hphase (h.unrequested (.inr hphase))]
    cases c.context.needsRescan <;> rfl
  rw [hanswer, UnitContext.needsRescan_iff, h.length]
  apply exists_congr
  intro id
  simp [KindFlags.looksLeaky, and_assoc]

/-! ## How often requests are granted -/

/-- A request uses up what is left to ask for. -/
theorem asksLeft_serve (c : Checker) {r : Request} (hr : r ≠ .beforeUnit) :
    (if r = .afterUnit ∧ (c.serve r).2 = true then 1 else 0) + (c.serve r).1.phase.asksLeft ≤
      c.phase.asksLeft := by
  rcases serve_phase c hr with ⟨rfl, hfrom, hto, hyes⟩ | ⟨rfl, hfrom, hto, -⟩ |
    ⟨hno, hsame | ⟨-, hto⟩⟩
  · simp [hfrom, hto, hyes, Phase.asksLeft]
  · simp [hfrom, hto, Phase.asksLeft]
  · simp [hno, hsame]
  · simp [hno, hto, Phase.asksLeft]

/-- What can be accepted was asked for. -/
theorem acceptsLeft_serve (c : Checker) {r : Request} (hr : r ≠ .beforeUnit) :
    (if r = .beginRescan ∧ (c.serve r).2 = true then 1 else 0) +
        (c.serve r).1.phase.acceptsLeft ≤
      (if r = .afterUnit ∧ (c.serve r).2 = true then 1 else 0) + c.phase.acceptsLeft := by
  rcases serve_phase c hr with ⟨rfl, hfrom, hto, hyes⟩ | ⟨rfl, hfrom, hto, hyes⟩ |
    ⟨hno, hsame | ⟨-, hto⟩⟩
  · simp [hfrom, hto, hyes, Phase.acceptsLeft]
  · simp [hfrom, hto, hyes, Phase.acceptsLeft]
  · simp [hno, hsame]
  · simp [hno, hto, Phase.acceptsLeft]

theorem granted_afterUnit_le {rs : List Request} (hrs : .beforeUnit ∉ rs) :
    c.granted .afterUnit rs ≤ c.phase.asksLeft := by
  induction rs generalizing c with
  | nil => exact Nat.zero_le _
  | cons r rs ih =>
    have hr : r ≠ .beforeUnit := fun heq => hrs (heq ▸ List.mem_cons_self)
    have hrest := ih (c := (c.serve r).1) fun hmem => hrs (List.mem_cons_of_mem r hmem)
    have hstep := asksLeft_serve c hr
    rw [granted]
    omega

theorem granted_beginRescan_le {rs : List Request} (hrs : .beforeUnit ∉ rs) :
    c.granted .beginRescan rs ≤ c.granted .afterUnit rs + c.phase.acceptsLeft := by
  induction rs generalizing c with
  | nil => exact Nat.zero_le _
  | cons r rs ih =>
    have hr : r ≠ .beforeUnit := fun heq => hrs (heq ▸ List.mem_cons_self)
    have hrest := ih (c := (c.serve r).1) fun hmem => hrs (List.mem_cons_of_mem r hmem)
    have hstep := acceptsLeft_serve c hr
    rw [granted, granted]
    omega

/-! ## Every epoch -/

/-- An epoch starts with a fresh checker, or when `beforeUnit` is called after any requests. -/
inductive EpochStart (t : ResourceTable) (options : CheckOptions) : Checker → Prop
  | fresh : EpochStart t options (.new t options)
  | entered (earlier : List Request) :
      EpochStart t options ((Checker.new t options).serveAll earlier).beforeUnit

theorem serve_uses (c : Checker) (r : Request) :
    (c.serve r).1.table = c.table ∧ (c.serve r).1.options = c.options := by
  cases r with
  | beforeUnit => exact ⟨rfl, rfl⟩
  | scan unit =>
    have hnoted := (scan_deeds c unit).noted
    exact ⟨hnoted.table, hnoted.options⟩
  | afterUnit =>
    unfold serve afterUnit
    cases c.phase with
    | scanning =>
      simp only
      split_ifs <;> exact ⟨rfl, rfl⟩
    | initial | maybeRescan | rescanning | done => exact ⟨rfl, rfl⟩
  | beginRescan =>
    unfold serve beginRescan
    split_ifs <;> exact ⟨rfl, rfl⟩

theorem serveAll_uses (c : Checker) (rs : List Request) :
    (c.serveAll rs).table = c.table ∧ (c.serveAll rs).options = c.options := by
  induction rs generalizing c with
  | nil => exact ⟨rfl, rfl⟩
  | cons r rs ih =>
    obtain ⟨htable, hoptions⟩ := serve_uses c r
    obtain ⟨htable', hoptions'⟩ := ih (c.serve r).1
    exact ⟨htable'.trans htable, hoptions'.trans hoptions⟩

theorem EpochStart.inEpoch (ht : t.names.Nodup) (h : EpochStart t options c) :
    c.InEpoch t options c.collector.submitted := by
  cases h with
  | fresh => exact inEpoch_new ht options
  | entered earlier =>
    obtain ⟨htable, hoptions⟩ := serveAll_uses (Checker.new t options) earlier
    exact inEpoch_beforeUnit ht htable hoptions

theorem EpochStart.asksLeft_le (h : EpochStart t options c) : c.phase.asksLeft ≤ 1 := by
  cases h <;> simp [Checker.new, Checker.beforeUnit, Phase.asksLeft]

theorem EpochStart.acceptsLeft_eq_zero (h : EpochStart t options c) :
    c.phase.acceptsLeft = 0 := by
  cases h <;> rfl

/-- In an epoch a second pass is asked for at most once, and granted at most once and only after
that, whatever the requests. At every point of it the request is on record from when it is made,
and there is one diagnostic for each entry of `reported`. A further request moves the phase forward
or not at all, clears no flag, and outside of the first scanning phase changes no conclusion of the
precise checks; at the end of that phase a second pass is asked for exactly if some kind looks
leaky; and outside of the two scanning phases a scan changes nothing. -/
theorem epoch_invariant (ht : t.names.Nodup) {c₀ : Checker} (hstart : EpochStart t options c₀)
    {rs : List Request} (hrs : .beforeUnit ∉ rs) :
    (c₀.granted .beginRescan rs ≤ c₀.granted .afterUnit rs ∧ c₀.granted .afterUnit rs ≤ 1) ∧
    (c₀.serveAll rs).InEpoch t options c₀.collector.submitted ∧
    (c₀.serveAll rs).collector.size =
      c₀.collector.size + (c₀.serveAll rs).context.reported.length ∧
    (∀ r ≠ .beforeUnit, Advances (c₀.serveAll rs) ((c₀.serveAll rs).serve r).1) ∧
    ((c₀.serveAll rs).phase = .scanning → ((c₀.serveAll rs).afterUnit.2 = true ↔
      ∃ id < t.kinds.length, ((c₀.serveAll rs).context.flagsOf id).obtained = true ∧
        ((c₀.serveAll rs).context.flagsOf id).released = false ∧
        ((c₀.serveAll rs).context.flagsOf id).handled = false)) ∧
    ((c₀.serveAll rs).phase ≠ .scanning → (c₀.serveAll rs).phase ≠ .rescanning →
      ∀ unit, (c₀.serveAll rs).scan unit = c₀.serveAll rs) := by
  have hin : (c₀.serveAll rs).InEpoch t options c₀.collector.submitted :=
    (hstart.inEpoch ht).serveAll hrs
  refine ⟨⟨?_, ?_⟩, hin, ?_, fun r hr => serve_advances _ hr, hin.afterUnit_iff,
    fun hscanning hrescanning unit => scan_ignored unit hscanning hrescanning⟩
  · have hle := granted_beginRescan_le (c := c₀) hrs
    rw [hstart.acceptsLeft_eq_zero] at hle
    exact hle
  · exact Nat.le_trans (granted_afterUnit_le hrs) hstart.asksLeft_le
  · obtain ⟨ds, hds, hreports⟩ := hin.told.submitted
    unfold Collector.size
    rw [hds, List.length_append, hreports.length_eq]

/-- Two rounds of requests for the class whose only method drops a message. -/
def twoRounds : List Request :=
  [.scan droppedMessage, .afterUnit, .beginRescan, .scan droppedMessage, .afterUnit, .beginRescan]

set_option maxRecDepth 10000 in
/-- The second pass is asked for and granted in the first round only, and of the two scans the
second one reports the message, once. -/
theorem epoch_invariant_of_message :
    let options : CheckOptions := ⟨false, true, .warning⟩
    let c₀ := ((Checker.new .builtin options).serveAll [.scan droppedMessage]).beforeUnit
    c₀.granted .beginRescan twoRounds = 1 ∧ c₀.granted .afterUnit twoRounds = 1 ∧
      (c₀.serveAll twoRounds).context.reported = [((0, 0), .leaked)] ∧
      (c₀.serveAll twoRounds).collector.size = 1 := by
  intro options c₀
  have hstart : EpochStart .builtin options c₀ := .entered [.scan droppedMessage]
  have hrounds : .beforeUnit ∉ twoRounds := by decide
  obtain ⟨⟨haccepted, hasked⟩, -, hsize, -⟩ := epoch_invariant (by decide) hstart hrounds
  have hgranted : c₀.granted .beginRescan twoRounds = 1 := by decide
  have hreported : (c₀.serveAll twoRounds).context.reported = [((0, 0), .leaked)] := by decide
  have hbefore : c₀.collector.size = 0 := by decide
  rw [hgranted] at haccepted
  rw [hreported, hbefore] at hsize
  exact ⟨hgranted, Nat.le_antisymm hasked haccepted, hreported, hsize⟩

end Checker
end PoolLint

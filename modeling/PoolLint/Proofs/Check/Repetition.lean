import PoolLint.Proofs.Check.Epoch

/-!
# Scanning a class again

A host may have a class scanned several times before it ends the pass. The passes note what they
have seen and reported, and what is noted is never taken back (`Grows`). Each step of a pass looks
there first, so a step that has been taken before changes nothing, at whatever later time it is
taken again. All that a repeated scan adds to is the count of precise checks that were given up,
since each scan makes these checks anew (`scan_repeated`).
-/

namespace PoolLint

open PoolLint.Bytecode PoolLint.Flow

/-- A change of flags that has no effect at a position has none on the whole. -/
theorem UnitContext.modifyFlags_eq_self {ctx : UnitContext} {id : Nat} {g : KindFlags → KindFlags}
    (h : id < ctx.flags.length → g (ctx.flagsOf id) = ctx.flagsOf id) :
    ctx.modifyFlags id g = ctx := by
  have hflags : (ctx.modifyFlags id g).flags = ctx.flags := by
    apply List.ext_getElem?
    intro j
    show (ctx.flags.modify id _)[j]? = _
    rw [List.getElem?_modify]
    by_cases hj : id = j
    · subst hj
      by_cases hid : id < ctx.flags.length
      · have hself : g ctx.flags[id].2 = ctx.flags[id].2 := by
          simpa only [flagsOf, List.getElem?_eq_getElem hid] using h hid
        rw [List.getElem?_eq_getElem hid]
        show some (if id = id then (ctx.flags[id].1, g ctx.flags[id].2) else ctx.flags[id]) = _
        rw [if_pos rfl, hself]
      · rw [List.getElem?_eq_none (by omega)]
        rfl
    · simp [hj]
  show { ctx with flags := (ctx.modifyFlags id g).flags } = ctx
  rw [hflags]

theorem UnitContext.noteReleased_eq_self {ctx : UnitContext} {id : Nat}
    (h : id < ctx.flags.length → (ctx.flagsOf id).released = true) :
    ctx.noteReleased id = ctx := by
  apply modifyFlags_eq_self
  intro hid
  rw [← h hid]

theorem UnitContext.noteObtained_eq_self {ctx : UnitContext} {id : Nat}
    (h : id < ctx.flags.length → (ctx.flagsOf id).obtained = true) :
    ctx.noteObtained id = ctx := by
  apply modifyFlags_eq_self
  intro hid
  rw [← h hid]

theorem UnitContext.noteHandled_eq_self {ctx : UnitContext} {id : Nat}
    (h : id < ctx.flags.length → (ctx.flagsOf id).handled = true) :
    ctx.noteHandled id = ctx := by
  apply modifyFlags_eq_self
  intro hid
  rw [← h hid]

namespace Checker

/-! ## What is noted stays noted -/

/-- The second checker knows all that the first one knows. -/
structure Grows (c c' : Checker) : Prop where
  table : c'.table = c.table
  length : c'.context.flags.length = c.context.flags.length
  flags : ∀ id, (c.context.flagsOf id).Le (c'.context.flagsOf id)
  settled : c.context.settled ⊆ c'.context.settled
  reported : c.context.reported ⊆ c'.context.reported

variable {unit : ClassFile} {c c' c'' : Checker}

theorem Grows.refl (c : Checker) : Grows c c :=
  ⟨rfl, rfl, fun _ => .refl _, List.Subset.refl _, List.Subset.refl _⟩

theorem Grows.trans (h : Grows c c') (h' : Grows c' c'') : Grows c c'' :=
  ⟨h'.table.trans h.table, h'.length.trans h.length, fun id => (h.flags id).trans (h'.flags id),
    List.Subset.trans h.settled h'.settled, List.Subset.trans h.reported h'.reported⟩

theorem grows_modifyFlags {g : KindFlags → KindFlags} (hg : ∀ f : KindFlags, f.Le (g f))
    (id : Nat) : Grows c (c.withContext (·.modifyFlags id g)) := by
  have hnoted := noted_modifyFlags (c := c) hg id
  exact ⟨hnoted.table, hnoted.length, hnoted.flags, List.Subset.refl _, List.Subset.refl _⟩

theorem grows_noteReleased (id : Nat) : Grows c (c.withContext (·.noteReleased id)) :=
  grows_modifyFlags (g := fun flags => { flags with released := true })
    (fun _ => ⟨fun h => h, fun _ => rfl, fun h => h⟩) id

theorem grows_noteObtained (id : Nat) : Grows c (c.withContext (·.noteObtained id)) :=
  grows_modifyFlags (g := fun flags => { flags with obtained := true })
    (fun _ => ⟨fun _ => rfl, fun h => h, fun h => h⟩) id

theorem grows_noteHandled (id : Nat) : Grows c (c.withContext (·.noteHandled id)) :=
  grows_modifyFlags (g := fun flags => { flags with handled := true })
    (fun _ => ⟨fun h => h, fun h => h, fun _ => rfl⟩) id

theorem grows_report (site : Site) (id : Nat) (finding : FindingKind) :
    Grows c (c.report unit site id finding) := by
  have hsame : SameButReports c (c.report unit site id finding) :=
    report_sameButReports site finding
  refine ⟨(report_uses unit site id finding).1, congrArg List.length hsame.flags, ?_, ?_, ?_⟩
  · intro j
    rw [UnitContext.flagsOf_congr hsame.flags]
    exact .refl _
  · rw [hsame.settled]
    exact List.Subset.refl _
  · unfold report
    split_ifs
    · exact List.Subset.refl _
    · cases c.table.kind? id with
      | none => exact List.subset_append_left _ _
      | some kind => exact List.subset_append_left _ _

/-- A report is on record afterwards, whether it was new or not. -/
theorem mem_reported_report (site : Site) (id : Nat) (finding : FindingKind) :
    (site, finding) ∈ (c.report unit site id finding).context.reported := by
  unfold report
  split_ifs with hmem
  · exact hmem
  · cases c.table.kind? id with
    | none => exact List.mem_append_right _ (List.mem_singleton.2 rfl)
    | some kind => exact List.mem_append_right _ (List.mem_singleton.2 rfl)

theorem report_of_mem {site : Site} {finding : FindingKind}
    (h : (site, finding) ∈ c.context.reported) (id : Nat) :
    c.report unit site id finding = c := by
  unfold report
  rw [if_pos h]

/-- What a step achieves, and further steps keep, is achieved for all of a list in the end. -/
theorem foldl_achieves {α : Type} {f : Checker → α → Checker} {P : Checker → α → Prop}
    (hachieve : ∀ c a, P (f c a) a) (hkeep : ∀ c a b, P c a → P (f c b) a) (as : List α) :
    ∀ a ∈ as, P (as.foldl f c) a := by
  have hkept : ∀ (as : List α) (c : Checker) (a : α), P c a → P (as.foldl f c) a := by
    intro as
    induction as with
    | nil => exact fun _ _ h => h
    | cons b as ih => exact fun c a h => ih (f c b) a (hkeep c a b h)
  induction as generalizing c with
  | nil => simp
  | cons b as ih =>
    intro a ha
    by_cases hmem : a ∈ as
    · exact ih a hmem
    · have hab : a = b := by simpa [hmem] using ha
      rw [hab]
      exact hkept as _ b (hachieve c b)

/-! ## Steps that have nothing left to do -/

/-- The flag of the role of a call is set. -/
def RoleNoted (c : Checker) (placed : PlacedCall) : Prop :=
  match c.table.classify placed.call with
  | some (.release id) => id < c.context.flags.length → (c.context.flagsOf id).released = true
  | some (.obtain id) => id < c.context.flags.length → (c.context.flagsOf id).obtained = true
  | none => True

/-- The place of a precise check is settled, and what the check has found is on record. -/
structure OutcomeNoted (c : Checker) (o : FlowOutcome) : Prop where
  settled : o.job.site ∈ c.context.settled
  uses : ∀ report, o.result = .ok report → ∀ i ∈ report.doubleReleases,
    ((o.job.site.1, i), FindingKind.alreadyRecycled) ∈ c.context.reported
  leak : ∀ report, o.result = .ok report → report.verdict = .leaked →
    (o.job.site, FindingKind.leaked) ∈ c.context.reported
  handled : ∀ report, o.result = .ok report → o.job.kind < c.context.flags.length →
    (c.context.flagsOf o.job.kind).handled = true

/-- The coarse pass has nothing to add for a call. -/
def CallReviewed (c : Checker) (placed : PlacedCall) : Prop :=
  match c.table.classify placed.call with
  | some (.release id) => id < c.context.flags.length → (c.context.flagsOf id).released = true
  | some (.obtain id) => (c.context.flagsOf id).looksLeaky = true →
      placed.site ∉ c.context.settled → (placed.site, FindingKind.leaked) ∈ c.context.reported
  | none => True

theorem RoleNoted.grows {placed : PlacedCall} (hc : Grows c c') (h : c.RoleNoted placed) :
    c'.RoleNoted placed := by
  unfold RoleNoted at h ⊢
  rw [hc.table, hc.length]
  cases hrole : c.table.classify placed.call with
  | none => trivial
  | some role =>
    rw [hrole] at h
    cases role with
    | obtain id => exact fun hid => (hc.flags id).obtained (h hid)
    | release id => exact fun hid => (hc.flags id).released (h hid)

theorem OutcomeNoted.grows {o : FlowOutcome} (hc : Grows c c') (h : c.OutcomeNoted o) :
    c'.OutcomeNoted o := by
  refine ⟨hc.settled h.settled, ?_, ?_, ?_⟩
  · intro report hreport i hi
    exact hc.reported (h.uses report hreport i hi)
  · intro report hreport hleaked
    exact hc.reported (h.leak report hreport hleaked)
  · intro report hreport hid
    rw [hc.length] at hid
    exact (hc.flags _).handled (h.handled report hreport hid)

/-- Flags that do not look leaky will not do so later, unless the kind is obtained for the first
time. -/
theorem CallReviewed.grows {placed : PlacedCall} (hc : Grows c c')
    (hobtained : ∀ id, (c'.context.flagsOf id).obtained = (c.context.flagsOf id).obtained)
    (h : c.CallReviewed placed) : c'.CallReviewed placed := by
  unfold CallReviewed at h ⊢
  rw [hc.table, hc.length]
  cases hrole : c.table.classify placed.call with
  | none => trivial
  | some role =>
    rw [hrole] at h
    cases role with
    | release id => exact fun hid => (hc.flags id).released (h hid)
    | obtain id =>
      intro hleaky hunsettled
      have hbefore : (c.context.flagsOf id).looksLeaky = true := by
        have hreleased := (hc.flags id).released
        have hhandled := (hc.flags id).handled
        simp only [KindFlags.looksLeaky, hobtained id, Bool.and_eq_true, Bool.not_eq_true'] at *
        grind
      exact hc.reported (h hbefore fun hmem => hunsettled (hc.settled hmem))

/-! ## One step -/

/-- A checker after `n` more precise checks that were given up. -/
def giveUp (c : Checker) (n : Nat) : Checker :=
  c.withContext fun ctx => { ctx with aborted := ctx.aborted + n }

theorem grows_giveUp (c : Checker) (n : Nat) : Grows c (c.giveUp n) :=
  ⟨rfl, rfl, fun _ => .refl _, List.Subset.refl _, List.Subset.refl _⟩

theorem giveUp_giveUp (c : Checker) (m n : Nat) : (c.giveUp m).giveUp n = c.giveUp (m + n) := by
  simp only [giveUp, withContext, Nat.add_assoc]

/-- Noting the role of a call. -/
def noteCall (c : Checker) (placed : PlacedCall) : Checker :=
  c.withContext (·.noteRole (c.table.classify placed.call))

theorem grows_noteCall (placed : PlacedCall) : Grows c (c.noteCall placed) := by
  unfold noteCall
  cases c.table.classify placed.call with
  | none => exact .refl c
  | some role =>
    cases role with
    | obtain id => exact grows_noteObtained id
    | release id => exact grows_noteReleased id

theorem withContext_eq_self {g : UnitContext → UnitContext} (h : g c.context = c.context) :
    c.withContext g = c := by
  unfold withContext
  rw [h]

theorem noteCall_of_noted {placed : PlacedCall} (h : c.RoleNoted placed) :
    c.noteCall placed = c := by
  unfold RoleNoted at h
  apply withContext_eq_self
  cases hrole : c.table.classify placed.call with
  | none => rfl
  | some role =>
    rw [hrole] at h
    cases role with
    | obtain id => exact UnitContext.noteObtained_eq_self h
    | release id => exact UnitContext.noteReleased_eq_self h

/-- A flag is set where it has just been set. -/
theorem flagsOf_modifyFlags_self (g : KindFlags → KindFlags) {id : Nat}
    (hid : id < (c.withContext (·.modifyFlags id g)).context.flags.length) :
    (c.withContext (·.modifyFlags id g)).context.flagsOf id = g (c.context.flagsOf id) := by
  have hbefore : id < c.context.flags.length := by
    rwa [← UnitContext.length_flags_modify g]
  show (c.context.modifyFlags id g).flagsOf id = _
  rw [UnitContext.flagsOf_modify g hbefore, if_pos rfl]

theorem roleNoted_noteCall (c : Checker) (placed : PlacedCall) :
    (c.noteCall placed).RoleNoted placed := by
  unfold RoleNoted
  rw [(grows_noteCall placed).table]
  unfold noteCall
  cases c.table.classify placed.call with
  | none => trivial
  | some role =>
    cases role with
    | obtain id =>
      intro hid
      exact congrArg KindFlags.obtained (flagsOf_modifyFlags_self _ hid)
    | release id =>
      intro hid
      exact congrArg KindFlags.released (flagsOf_modifyFlags_self _ hid)

/-- Settles a place. -/
def settle (c : Checker) (site : Site) : Checker :=
  c.withContext fun ctx => { ctx with settled := insertNew site ctx.settled }

/-- Reports the uses after release that a precise check has found. -/
def reportUses (unit : ClassFile) (c : Checker) (job : FlowJob) (indices : List Nat) : Checker :=
  indices.foldl (fun c i => c.report unit (job.site.1, i) job.kind .alreadyRecycled) c

/-- Reports what a precise check has found. -/
def reportFound (unit : ClassFile) (c : Checker) (job : FlowJob) (report : FlowReport) : Checker :=
  let c := reportUses unit c job report.doubleReleases
  if report.verdict = .leaked then c.report unit job.site job.kind .leaked else c

theorem record_ok {o : FlowOutcome} {report : FlowReport} (h : o.result = .ok report) :
    record unit c o = (reportFound unit (c.settle o.job.site) o.job report).withContext
      (·.noteHandled o.job.kind) := by
  unfold record
  rw [h]
  rfl

theorem record_error {o : FlowOutcome} {e : FlowError} (h : o.result = .error e) :
    record unit c o = (c.settle o.job.site).giveUp 1 := by
  unfold record
  rw [h]
  rfl

theorem grows_settle (c : Checker) (site : Site) : Grows c (c.settle site) :=
  ⟨rfl, rfl, fun _ => .refl _, fun _ hmem => mem_insertNew.2 (.inl hmem), List.Subset.refl _⟩

theorem mem_settled_settle (c : Checker) (site : Site) : site ∈ (c.settle site).context.settled :=
  mem_insertNew.2 (.inr rfl)

theorem grows_reportUses (c : Checker) (job : FlowJob) (indices : List Nat) :
    Grows c (reportUses unit c job indices) := by
  induction indices generalizing c with
  | nil => exact .refl c
  | cons i indices ih => exact (grows_report _ _ _).trans (ih _)

theorem mem_reported_reportUses (c : Checker) (job : FlowJob) (indices : List Nat) :
    ∀ i ∈ indices, ((job.site.1, i), FindingKind.alreadyRecycled) ∈
      (reportUses unit c job indices).context.reported := by
  refine foldl_achieves
    (P := fun c i => ((job.site.1, i), FindingKind.alreadyRecycled) ∈ c.context.reported) ?_ ?_ _
  · intro c i
    exact mem_reported_report _ _ _
  · intro c i j hmem
    exact (grows_report _ _ _).reported hmem

theorem grows_reportFound (c : Checker) (job : FlowJob) (report : FlowReport) :
    Grows c (reportFound unit c job report) := by
  have huses : Grows c (reportUses unit c job report.doubleReleases) := grows_reportUses _ _ _
  unfold reportFound
  split_ifs
  · exact huses.trans (grows_report job.site job.kind .leaked)
  · exact huses

theorem grows_record (c : Checker) (o : FlowOutcome) : Grows c (record unit c o) := by
  have hsettled := grows_settle c o.job.site
  cases hresult : o.result with
  | error e =>
    rw [record_error hresult]
    exact hsettled.trans (grows_giveUp _ 1)
  | ok report =>
    rw [record_ok hresult]
    exact (hsettled.trans (grows_reportFound _ o.job report)).trans (grows_noteHandled o.job.kind)

theorem outcomeNoted_record (c : Checker) (o : FlowOutcome) :
    (record unit c o).OutcomeNoted o := by
  have hsettled := mem_settled_settle c o.job.site
  cases hresult : o.result with
  | error e =>
    rw [record_error hresult]
    refine ⟨hsettled, ?_, ?_, ?_⟩
    · simp [hresult]
    · simp [hresult]
    · simp [hresult]
  | ok report =>
    have hsame : ∀ report', o.result = .ok report' → report = report' := by
      intro report' hreport'
      exact Except.ok.inj (hresult.symm.trans hreport')
    have hfound : Grows (c.settle o.job.site)
        (reportFound unit (c.settle o.job.site) o.job report) := grows_reportFound _ _ _
    rw [record_ok hresult]
    refine ⟨hfound.settled hsettled, ?_, ?_, ?_⟩
    · intro report' hreport' i hi
      rw [← hsame report' hreport'] at hi
      have hmem : ((o.job.site.1, i), FindingKind.alreadyRecycled) ∈
          (reportUses unit (c.settle o.job.site) o.job report.doubleReleases).context.reported :=
        mem_reported_reportUses _ _ _ i hi
      show _ ∈ (reportFound unit (c.settle o.job.site) o.job report).context.reported
      unfold reportFound
      split_ifs
      · exact (grows_report _ _ _).reported hmem
      · exact hmem
    · intro report' hreport' hleaked
      rw [← hsame report' hreport'] at hleaked
      show _ ∈ (reportFound unit (c.settle o.job.site) o.job report).context.reported
      unfold reportFound
      rw [if_pos hleaked]
      exact mem_reported_report _ _ _
    · intro report' _ hid
      exact congrArg KindFlags.handled (flagsOf_modifyFlags_self _ hid)

/-- A check that is made again comes to what is known, or is given up again. -/
theorem record_of_noted {o : FlowOutcome} (h : c.OutcomeNoted o) :
    record unit c o = c.giveUp (if o.failed then 1 else 0) := by
  have hsettle : c.settle o.job.site = c := by
    apply withContext_eq_self
    unfold insertNew
    rw [if_pos h.settled]
  unfold FlowOutcome.failed
  cases hresult : o.result with
  | error e =>
    rw [record_error hresult, hsettle]
    rfl
  | ok report =>
    have huses : reportUses unit c o.job report.doubleReleases = c := by
      refine List.foldlRecOn (motive := fun c' => c' = c) _ _ rfl ?_
      intro c' hc' i hi
      rw [hc']
      exact report_of_mem (h.uses report hresult i hi) _
    have hfound : reportFound unit c o.job report = c := by
      unfold reportFound
      rw [huses]
      split_ifs with hleaked
      · exact report_of_mem (h.leak report hresult hleaked) _
      · rfl
    rw [record_ok hresult, hsettle, hfound]
    exact withContext_eq_self (UnitContext.noteHandled_eq_self (h.handled report hresult))

/-! ## One pass -/

theorem grows_coarseCall (c : Checker) (placed : PlacedCall) :
    Grows c (coarseCall unit c placed) := by
  unfold coarseCall
  cases c.table.classify placed.call with
  | none => exact .refl c
  | some role =>
    cases role with
    | release id => exact grows_noteReleased id
    | obtain id =>
      simp only
      split_ifs
      · exact grows_report placed.site id .leaked
      · exact .refl c

/-- The coarse pass does not look for kinds that are obtained. -/
theorem obtained_coarseCall (c : Checker) (placed : PlacedCall) (j : Nat) :
    ((coarseCall unit c placed).context.flagsOf j).obtained = (c.context.flagsOf j).obtained := by
  unfold coarseCall
  cases c.table.classify placed.call with
  | none => rfl
  | some role =>
    cases role with
    | release id =>
      exact UnitContext.flagsOf_modify_related (R := fun f g => g.obtained = f.obtained)
        (g := fun flags => { flags with released := true }) (fun _ => rfl) (fun _ => rfl)
        c.context id j
    | obtain id =>
      simp only
      split_ifs
      · rw [UnitContext.flagsOf_congr (report_sameButReports (c := c) placed.site .leaked).flags]
      · rfl

theorem callReviewed_coarseCall (c : Checker) (placed : PlacedCall) :
    (coarseCall unit c placed).CallReviewed placed := by
  unfold CallReviewed
  rw [(grows_coarseCall c placed).table]
  unfold coarseCall
  cases c.table.classify placed.call with
  | none => trivial
  | some role =>
    cases role with
    | release id =>
      intro hid
      exact congrArg KindFlags.released (flagsOf_modifyFlags_self _ hid)
    | obtain id =>
      simp only
      split_ifs with hreport
      · exact fun _ _ => mem_reported_report _ _ _
      · intro hleaky hunsettled
        simp [hleaky, hunsettled] at hreport

theorem coarseCall_of_reviewed {placed : PlacedCall} (h : c.CallReviewed placed) :
    coarseCall unit c placed = c := by
  unfold CallReviewed at h
  unfold coarseCall
  cases hrole : c.table.classify placed.call with
  | none => rfl
  | some role =>
    rw [hrole] at h
    cases role with
    | release id => exact withContext_eq_self (UnitContext.noteReleased_eq_self h)
    | obtain id =>
      simp only
      split_ifs with hreport
      · simp only [Bool.and_eq_true, Bool.not_eq_true', List.contains_eq_mem,
          decide_eq_false_iff_not] at hreport
        exact report_of_mem (h hreport.1 hreport.2) id
      · rfl

/-- A precise pass leaves nothing to note. -/
theorem precisePass_noted (c : Checker) (unit : ClassFile) :
    (∀ placed ∈ classCalls unit, (c.precisePass unit).RoleNoted placed) ∧
    ∀ o ∈ flowOutcomes c.table unit, (c.precisePass unit).OutcomeNoted o := by
  let seen := (classCalls unit).foldl noteCall c
  have hseen : Grows c seen := by
    refine List.foldlRecOn (motive := Grows c) _ _ (.refl c) ?_
    intro c' hc' placed _
    exact hc'.trans (grows_noteCall placed)
  have hpass : c.precisePass unit = (flowOutcomes c.table unit).foldl (record unit) seen := by
    rw [← hseen.table]
    rfl
  have hgrows : Grows seen (c.precisePass unit) := by
    rw [hpass]
    refine List.foldlRecOn (motive := Grows seen) _ _ (.refl seen) ?_
    intro c' hc' o _
    exact hc'.trans (grows_record c' o)
  constructor
  · intro placed hplaced
    refine RoleNoted.grows hgrows (foldl_achieves roleNoted_noteCall ?_ _ placed hplaced)
    intro c a b h
    exact h.grows (grows_noteCall b)
  · rw [hpass]
    refine foldl_achieves outcomeNoted_record ?_ _
    intro c a b h
    exact h.grows (grows_record c b)

/-- With nothing to note, a precise pass only counts the checks that it has to give up. -/
theorem precisePass_of_noted (hroles : ∀ placed ∈ classCalls unit, c.RoleNoted placed)
    (houtcomes : ∀ o ∈ flowOutcomes c.table unit, c.OutcomeNoted o) :
    c.precisePass unit = c.giveUp ((flowOutcomes c.table unit).countP (·.failed)) := by
  have hseen : (classCalls unit).foldl noteCall c = c := by
    refine List.foldlRecOn (motive := fun c' => c' = c) _ _ rfl ?_
    intro c' hc' placed hplaced
    rw [hc']
    exact noteCall_of_noted (hroles placed hplaced)
  have hrecord : ∀ (os : List FlowOutcome) (c : Checker), (∀ o ∈ os, c.OutcomeNoted o) →
      os.foldl (record unit) c = c.giveUp (os.countP (·.failed)) := by
    intro os
    induction os with
    | nil => exact fun _ _ => rfl
    | cons o os ih =>
      intro c hos
      have hrest : ∀ o' ∈ os, (c.giveUp (if o.failed then 1 else 0)).OutcomeNoted o' := by
        intro o' ho'
        exact (hos o' (List.mem_cons_of_mem o ho')).grows (grows_giveUp c _)
      rw [List.foldl_cons, record_of_noted (hos o List.mem_cons_self), ih _ hrest, giveUp_giveUp,
        List.countP_cons, Nat.add_comm]
  show (flowOutcomes ((classCalls unit).foldl noteCall c).table unit).foldl (record unit)
    ((classCalls unit).foldl noteCall c) = _
  rw [hseen]
  exact hrecord _ c houtcomes

theorem coarsePass_reviewed (c : Checker) (unit : ClassFile) :
    ∀ placed ∈ classCalls unit, (c.coarsePass unit).CallReviewed placed := by
  refine foldl_achieves callReviewed_coarseCall ?_ _
  intro c a b h
  exact h.grows (grows_coarseCall c b) (obtained_coarseCall c b)

theorem coarsePass_of_reviewed (h : ∀ placed ∈ classCalls unit, c.CallReviewed placed) :
    c.coarsePass unit = c := by
  refine List.foldlRecOn (motive := fun c' => c' = c) _ _ rfl ?_
  intro c' hc' placed hplaced
  rw [hc']
  exact coarseCall_of_reviewed (h placed hplaced)

/-! ## Scans -/

/-- A scan of the class in the present phase has nothing left to note. -/
def UpToDate (c : Checker) (unit : ClassFile) : Prop :=
  match c.phase with
  | .scanning => (∀ placed ∈ classCalls unit, c.RoleNoted placed) ∧
      ∀ o ∈ flowOutcomes c.table unit, c.OutcomeNoted o
  | .rescanning => ∀ placed ∈ classCalls unit, c.CallReviewed placed
  | .initial | .maybeRescan | .done => True

/-- How many precise checks a scan of the class has to give up. -/
def failedChecks (c : Checker) (unit : ClassFile) : Nat :=
  match c.phase with
  | .scanning => (flowOutcomes c.table unit).countP (·.failed)
  | .initial | .maybeRescan | .rescanning | .done => 0

theorem scan_upToDate (c : Checker) (unit : ClassFile) : (c.scan unit).UpToDate unit := by
  have hnoted := (scan_deeds c unit).noted
  unfold UpToDate
  rw [hnoted.phase, hnoted.table]
  unfold scan
  cases c.phase with
  | scanning => exact precisePass_noted c unit
  | rescanning => exact coarsePass_reviewed c unit
  | initial | maybeRescan | done => trivial

theorem scan_of_upToDate (h : c.UpToDate unit) :
    c.scan unit = c.giveUp (c.failedChecks unit) := by
  unfold UpToDate at h
  unfold scan failedChecks
  cases hphase : c.phase with
  | scanning =>
    rw [hphase] at h
    exact precisePass_of_noted h.1 h.2
  | rescanning =>
    rw [hphase] at h
    exact coarsePass_of_reviewed h
  | initial | maybeRescan | done => rfl

/-- The count of checks that were given up is not looked at. -/
theorem UpToDate.giveUp (h : c.UpToDate unit) (n : Nat) : (c.giveUp n).UpToDate unit := by
  unfold UpToDate at h ⊢
  show match c.phase with
    | .scanning => (∀ placed ∈ classCalls unit, (c.giveUp n).RoleNoted placed) ∧
        ∀ o ∈ flowOutcomes c.table unit, (c.giveUp n).OutcomeNoted o
    | .rescanning => ∀ placed ∈ classCalls unit, (c.giveUp n).CallReviewed placed
    | .initial | .maybeRescan | .done => True
  cases hphase : c.phase with
  | scanning =>
    rw [hphase] at h
    exact ⟨fun placed hplaced => (h.1 placed hplaced).grows (grows_giveUp c n),
      fun o ho => (h.2 o ho).grows (grows_giveUp c n)⟩
  | rescanning =>
    rw [hphase] at h
    exact fun placed hplaced => (h placed hplaced).grows (grows_giveUp c n) fun _ => rfl
  | initial | maybeRescan | done => trivial

theorem failedChecks_scan (c : Checker) (unit : ClassFile) :
    (c.scan unit).failedChecks unit = c.failedChecks unit := by
  have hnoted := (scan_deeds c unit).noted
  unfold failedChecks
  rw [hnoted.phase, hnoted.table]

theorem serveAll_concat (c : Checker) (rs : List Request) (r : Request) :
    c.serveAll (rs ++ [r]) = ((c.serveAll rs).serve r).1 :=
  List.foldl_append

/-- Whatever has been asked of a checker before, and whatever its phase: scanning a class several
times in a row leaves it with the flags, settled places, findings and diagnostics that one scan
leaves it with. Nothing is different but the count of precise checks that were given up, to which
each scan adds the same number. -/
theorem scan_repeated (c : Checker) (unit : ClassFile) (k : Nat) :
    let once := c.scan unit
    let repeatedly := c.serveAll (List.replicate (k + 1) (.scan unit))
    repeatedly.context.flags = once.context.flags ∧
    repeatedly.context.settled = once.context.settled ∧
    repeatedly.context.reported = once.context.reported ∧
    repeatedly.collector.submitted = once.collector.submitted ∧
    repeatedly = once.giveUp (k * c.failedChecks unit) := by
  have hstate : c.serveAll (List.replicate (k + 1) (.scan unit)) =
      (c.scan unit).giveUp (k * c.failedChecks unit) := by
    induction k with
    | zero =>
      rw [Nat.zero_mul]
      rfl
    | succ k ih =>
      have hfailed : ((c.scan unit).giveUp (k * c.failedChecks unit)).failedChecks unit =
          c.failedChecks unit := failedChecks_scan c unit
      rw [List.replicate_succ', serveAll_concat, ih]
      show ((c.scan unit).giveUp (k * c.failedChecks unit)).scan unit = _
      rw [scan_of_upToDate ((scan_upToDate c unit).giveUp _), giveUp_giveUp, hfailed,
        Nat.succ_mul]
  intro once repeatedly
  have hrepeatedly : repeatedly = once.giveUp (k * c.failedChecks unit) := hstate
  rw [hrepeatedly]
  exact ⟨rfl, rfl, rfl, rfl, rfl⟩

end Checker
end PoolLint

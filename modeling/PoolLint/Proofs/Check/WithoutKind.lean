import PoolLint.Proofs.Check.MethodOrder

/-!
# A table without one of its kinds

Kinds are found by their place in the table, and a call counts for the first kind that covers it.
Without one of the kinds a call may therefore count for another one, and then findings about other
kinds come and go. Where no call of the class that counts for the kind is covered by another one
(`ResourceTable.StandsApart`), what comes up in a check is what came up before, less the findings
about the kind (`broughtUp_remove`).

Findings are reported once for each place and code. A call that uses instances of two kinds after
their release is reported for the one that is obtained first, and if this kind is left out then it
is reported for the other one (`TakenOver`). This is all that leaving out a kind adds, and it takes
away no finding about another kind (`findings_remove_perm`).
-/

namespace PoolLint

open PoolLint.Bytecode PoolLint.Flow

/-- The first element with a property, among those with another one. -/
theorem find?_filter_eq {α : Type} {as : List α} {p q : α → Bool}
    (h : ∀ a, as.find? p = some a → q a = false → ∀ b ∈ as, q b = true → p b = false) :
    (as.filter q).find? p = (as.find? p).filter q := by
  cases hfirst : as.find? p with
  | none =>
    rw [List.find?_eq_none] at hfirst
    rw [Option.filter_none, List.find?_eq_none]
    intro b hb
    exact hfirst b (List.mem_of_mem_filter hb)
  | some a =>
    cases hq : q a with
    | false =>
      rw [Option.filter_some, hq, if_neg Bool.false_ne_true, List.find?_eq_none]
      intro b hb
      obtain ⟨hb, hqb⟩ := List.mem_filter.1 hb
      rw [h a hfirst hq b hb hqb]
      exact Bool.false_ne_true
    | true =>
      obtain ⟨hpa, before, after, rfl, hbefore⟩ := List.find?_eq_some_iff_append.1 hfirst
      rw [Option.filter_some, hq, if_pos rfl, List.find?_eq_some_iff_append]
      refine ⟨hpa, before.filter q, after.filter q, ?_, ?_⟩
      · rw [List.filter_append, List.filter_cons_of_pos hq]
      · intro b hb
        exact hbefore b (List.mem_of_mem_filter hb)

/-! ## Roles without positions -/

namespace ResourceTable

variable {t : ResourceTable} {call : CallSite} {kind : ResourceKind} {name : String}

/-- The kind that a call is taken to release. -/
def released? (t : ResourceTable) (call : CallSite) : Option ResourceKind :=
  t.kinds.find? (·.isRelease call)

/-- The kind that a call is taken to obtain. -/
def obtained? (t : ResourceTable) (call : CallSite) : Option ResourceKind :=
  match t.released? call with
  | some _ => none
  | none => t.kinds.find? (·.isObtain call)

theorem released?_eq_some : t.released? call = some kind ↔
    ∃ id, t.classify call = some (.release id) ∧ t.kind? id = some kind := by
  unfold released? kind?
  simp only [classify_eq_release_iff]
  rw [List.find?_eq_bind_findIdx?_getElem?, Option.bind_eq_some_iff]

theorem released?_eq_none : t.released? call = none ↔
    t.kinds.findIdx? (·.isRelease call) = none := by
  unfold released?
  rw [List.find?_eq_none, List.findIdx?_eq_none_iff]
  simp

theorem obtained?_eq_some : t.obtained? call = some kind ↔
    ∃ id, t.classify call = some (.obtain id) ∧ t.kind? id = some kind := by
  simp only [classify_eq_obtain_iff, ← released?_eq_none]
  unfold obtained? kind?
  cases t.released? call with
  | none =>
    rw [List.find?_eq_bind_findIdx?_getElem?, Option.bind_eq_some_iff]
    simp
  | some k => simp

/-- Does the call count as obtaining or releasing the kind of that name? -/
def CountsFor (t : ResourceTable) (name : String) (call : CallSite) : Prop :=
  (t.obtained? call).map (·.name) = some name ∨ (t.released? call).map (·.name) = some name

instance : Decidable (t.CountsFor name call) :=
  inferInstanceAs (Decidable (_ ∨ _))

/-- Where a call counts for the kind of that name, no other kind covers it. -/
def Apart (t : ResourceTable) (name : String) (call : CallSite) : Prop :=
  t.CountsFor name call →
    ∀ other ∈ t.kinds, other.name ≠ name →
      other.isObtain call = false ∧ other.isRelease call = false

instance : Decidable (t.Apart name call) :=
  inferInstanceAs (Decidable (_ → _))

/-- No call of the class that counts for the kind of that name is covered by another kind. -/
def StandsApart (t : ResourceTable) (unit : ClassFile) (name : String) : Prop :=
  ∀ placed ∈ classCalls unit, t.Apart name placed.call

instance {unit : ClassFile} : Decidable (t.StandsApart unit name) :=
  inferInstanceAs (Decidable (∀ placed ∈ classCalls unit, _))

theorem countsFor_of_obtained (hobtained : t.obtained? call = some kind)
    (hname : kind.name = name) : t.CountsFor name call :=
  .inl (by rw [hobtained, Option.map_some, hname])

theorem countsFor_of_released (hreleased : t.released? call = some kind)
    (hname : kind.name = name) : t.CountsFor name call :=
  .inr (by rw [hreleased, Option.map_some, hname])

theorem kinds_remove (t : ResourceTable) (name : String) :
    (t.remove [name]).kinds = t.kinds.filter (·.name != name) := by
  simp only [remove, bne, List.contains_cons, List.contains_nil, Bool.or_false]

theorem released?_remove (h : t.Apart name call) :
    (t.remove [name]).released? call = (t.released? call).filter (·.name != name) := by
  unfold released?
  rw [kinds_remove]
  refine find?_filter_eq ?_
  intro kind hfirst hname other hother hne
  have hcounts := countsFor_of_released hfirst (by simpa using hname)
  exact (h hcounts other hother (by simpa using hne)).2

theorem obtained?_remove (h : t.Apart name call) :
    (t.remove [name]).obtained? call = (t.obtained? call).filter (·.name != name) := by
  have hremove := released?_remove h
  cases hreleased : t.released? call with
  | none =>
    have hobtained : t.obtained? call = t.kinds.find? (·.isObtain call) := by
      unfold obtained?
      rw [hreleased]
    rw [hreleased, Option.filter_none] at hremove
    unfold obtained?
    rw [hremove, hreleased, kinds_remove]
    refine find?_filter_eq ?_
    intro kind hfirst hname other hother hne
    rw [← hobtained] at hfirst
    exact (h (countsFor_of_obtained hfirst (by simpa using hname)) other hother
      (by simpa using hne)).1
  | some kind =>
    have hobtained : t.obtained? call = none := by
      unfold obtained?
      rw [hreleased]
    rw [hobtained, Option.filter_none]
    unfold obtained?
    rw [hremove, hreleased, Option.filter_some]
    by_cases hname : kind.name = name
    · -- the call released the kind that is left out, and no other kind covers it
      have hnone : (t.remove [name]).kinds.find? (·.isObtain call) = none := by
        rw [kinds_remove, List.find?_eq_none]
        intro other hother
        obtain ⟨hother, hne⟩ := List.mem_filter.1 hother
        rw [(h (countsFor_of_released hreleased hname) other hother (by simpa using hne)).1]
        exact Bool.false_ne_true
      simp [hname, hnone]
    · simp [hname]

end ResourceTable

/-! ## What comes up, without positions -/

section BroughtUp

variable {t : ResourceTable} {options : CheckOptions} {unit : ClassFile} {c : Checker}
  {name : String}

/-- What comes up in the precise check of an instance. -/
def preciseFindings (unit : ClassFile) (site : Site) (kind : ResourceKind) : List Finding :=
  match unit.methods[site.1]? with
  | none => []
  | some m =>
    if kind.flowChecked then
      match checkMethodFlow m site.2 kind with
      | .ok report => reportFindings site kind report
      | .error _ => []
    else []

/-- What comes up of a call in the coarse pass, given the kind that it obtains. -/
def coarseFindings (t : ResourceTable) (unit : ClassFile) (site : Site) (kind : ResourceKind) :
    List Finding :=
  if kind.flowChecked = false ∧
      ¬∃ placed ∈ classCalls unit, t.released? placed.call = some kind then
    [⟨site, .leaked, kind⟩]
  else []

/-- All that comes up in a check, in order. -/
def broughtUp (t : ResourceTable) (options : CheckOptions) (unit : ClassFile) : List Finding :=
  ((classCalls unit).flatMap fun placed =>
    (t.obtained? placed.call).toList.flatMap (preciseFindings unit placed.site)) ++
  if options.rescan then
    (classCalls unit).flatMap fun placed =>
      (t.obtained? placed.call).toList.flatMap (coarseFindings t unit placed.site)
  else []

theorem kind_of_mem_preciseFindings {site : Site} {kind : ResourceKind} {x : Finding}
    (h : x ∈ preciseFindings unit site kind) : x.kind = kind := by
  unfold preciseFindings at h
  split at h
  · cases h
  · split_ifs at h
    · split at h
      · exact kind_of_mem_reportFindings h
      · cases h
    · cases h

theorem kind_of_mem_coarseFindings {site : Site} {kind : ResourceKind} {x : Finding}
    (h : x ∈ coarseFindings t unit site kind) : x.kind = kind := by
  unfold coarseFindings at h
  split_ifs at h
  · rw [List.mem_singleton.1 h]
  · cases h

/-- Leaving out a kind leaves out the findings about it. -/
theorem flatMap_filter_kind {g g' : ResourceKind → List Finding} (kind? : Option ResourceKind)
    (hkind : ∀ kind, ∀ x ∈ g kind, x.kind = kind)
    (hsame : ∀ kind, kind.name ≠ name → g' kind = g kind) :
    (kind?.filter (·.name != name)).toList.flatMap g' =
      (kind?.toList.flatMap g).filter (·.kind.name != name) := by
  cases kind? with
  | none => rfl
  | some kind =>
    rw [Option.filter_some]
    by_cases hname : kind.name = name
    · have hnone : (g kind).filter (·.kind.name != name) = [] := by
        rw [List.filter_eq_nil_iff]
        intro x hx
        simp [hkind kind x hx, hname]
      simp [hname, hnone]
    · have hall : (g kind).filter (·.kind.name != name) = g kind := by
        rw [List.filter_eq_self]
        intro x hx
        simp [hkind kind x hx, hname]
      simp [hname, hall, hsame kind hname]

/-- Without a kind that stands apart the same comes up as before, less the findings about it. -/
theorem broughtUp_remove (h : t.StandsApart unit name) (options : CheckOptions) :
    broughtUp (t.remove [name]) options unit =
      (broughtUp t options unit).filter (·.kind.name != name) := by
  have hcoarse : ∀ (site : Site) (kind : ResourceKind), kind.name ≠ name →
      coarseFindings (t.remove [name]) unit site kind = coarseFindings t unit site kind := by
    intro site kind hname
    have hreleased : (∃ placed ∈ classCalls unit,
        (t.remove [name]).released? placed.call = some kind) ↔
          ∃ placed ∈ classCalls unit, t.released? placed.call = some kind := by
      constructor
      · rintro ⟨placed, hplaced, hrole⟩
        rw [ResourceTable.released?_remove (h placed hplaced), Option.filter_eq_some_iff] at hrole
        exact ⟨placed, hplaced, hrole.1⟩
      · rintro ⟨placed, hplaced, hrole⟩
        refine ⟨placed, hplaced, ?_⟩
        rw [ResourceTable.released?_remove (h placed hplaced), Option.filter_eq_some_iff]
        exact ⟨hrole, by simpa using hname⟩
    unfold coarseFindings
    simp only [hreleased]
  have hpass : ∀ g g' : Site → ResourceKind → List Finding,
      (∀ site kind, ∀ x ∈ g site kind, x.kind = kind) →
      (∀ site kind, kind.name ≠ name → g' site kind = g site kind) →
        ((classCalls unit).flatMap fun placed =>
          ((t.remove [name]).obtained? placed.call).toList.flatMap (g' placed.site)) =
        ((classCalls unit).flatMap fun placed =>
          (t.obtained? placed.call).toList.flatMap (g placed.site)).filter
            (·.kind.name != name) := by
    intro g g' hkind hsame
    rw [List.filter_flatMap]
    refine List.flatMap_congr ?_
    intro placed hplaced
    rw [ResourceTable.obtained?_remove (h placed hplaced)]
    exact flatMap_filter_kind _ (hkind placed.site) (hsame placed.site)
  unfold broughtUp
  rw [List.filter_append]
  congr 1
  · exact hpass _ _ (fun _ _ _ => kind_of_mem_preciseFindings) fun _ _ _ => rfl
  · split_ifs
    · exact hpass _ _ (fun _ _ _ => kind_of_mem_coarseFindings) hcoarse
    · rfl

/-! ### The passes bring up just this -/

theorem obtainedAt_iff_obtained? {j i : Nat} {kind : ResourceKind} :
    (∃ id m, ObtainedAt t unit j i id kind m) ↔
      ∃ call, ⟨(j, i), call⟩ ∈ classCalls unit ∧ t.obtained? call = some kind := by
  simp only [ResourceTable.obtained?_eq_some]
  constructor
  · rintro ⟨id, m, hmethod, ⟨call, hcode, hrole⟩, hkind⟩
    exact ⟨call, mem_classCalls.2 ⟨m, hmethod, hcode⟩, id, hrole, hkind⟩
  · rintro ⟨call, hmem, id, hrole, hkind⟩
    obtain ⟨m, hmethod, hcode⟩ := mem_classCalls.1 hmem
    exact ⟨id, m, hmethod, ⟨call, hcode, hrole⟩, hkind⟩

theorem flowJob?_findings {placed : PlacedCall} {m : Method}
    (hm : unit.methods[placed.site.1]? = some m) :
    ((flowJob? t placed).toList.flatMap fun job =>
      (runJob t unit job).toList.flatMap (outcomeFindings t)) =
        (t.obtained? placed.call).toList.flatMap (preciseFindings unit placed.site) := by
  cases hobtained : t.obtained? placed.call with
  | none =>
    have hjob : flowJob? t placed = none := by
      rw [Option.eq_none_iff_forall_ne_some]
      intro job hjob
      obtain ⟨-, hrole, kind, hkind, -⟩ := flowJob?_eq_some.1 hjob
      rw [ResourceTable.obtained?_eq_some.2 ⟨job.kind, hrole, hkind⟩] at hobtained
      cases hobtained
    rw [hjob]
    rfl
  | some kind =>
    obtain ⟨id, hrole, hkind⟩ := ResourceTable.obtained?_eq_some.1 hobtained
    have hprecise : preciseFindings unit placed.site kind = if kind.flowChecked then
        outcomeFindings t ⟨⟨placed.site, id⟩, checkMethodFlow m placed.site.2 kind⟩ else [] := by
      unfold preciseFindings outcomeFindings
      simp only [hm, hkind]
      cases checkMethodFlow m placed.site.2 kind <;> rfl
    cases hchecked : kind.flowChecked with
    | false =>
      have hjob : flowJob? t placed = none := by
        unfold flowJob?
        simp [hrole, hkind, hchecked]
      rw [hjob, Option.toList_some, List.flatMap_singleton, hprecise, hchecked]
      rfl
    | true =>
      have hjob : flowJob? t placed = some ⟨placed.site, id⟩ :=
        flowJob?_eq_some.2 ⟨rfl, hrole, kind, hkind, hchecked⟩
      have hrun : runJob t unit ⟨placed.site, id⟩ =
          some ⟨⟨placed.site, id⟩, checkMethodFlow m placed.site.2 kind⟩ :=
        runJob_eq_some.2 ⟨m, kind, hm, hkind, rfl⟩
      rw [hjob, Option.toList_some, List.flatMap_singleton, hrun, Option.toList_some,
        List.flatMap_singleton, Option.toList_some, List.flatMap_singleton, hprecise,
        if_pos hchecked]

theorem precise_eq (t : ResourceTable) (unit : ClassFile) :
    (flowOutcomes t unit).flatMap (outcomeFindings t) = (classCalls unit).flatMap fun placed =>
      (t.obtained? placed.call).toList.flatMap (preciseFindings unit placed.site) := by
  unfold flowOutcomes
  rw [List.filterMap_eq_flatMap_toList, List.filterMap_eq_flatMap_toList, List.flatMap_assoc,
    List.flatMap_assoc]
  refine List.flatMap_congr ?_
  intro placed hplaced
  obtain ⟨m, hm, -⟩ := mem_classCalls.1 hplaced
  exact flowJob?_findings hm

theorem releasedIn_iff_released? (ht : t.names.Nodup) {id : Nat} {kind : ResourceKind}
    (hkind : t.kind? id = some kind) : ReleasedIn t unit id ↔
      ∃ placed ∈ classCalls unit, t.released? placed.call = some kind := by
  rw [releasedIn_iff]
  simp only [ResourceTable.released?_eq_some]
  constructor
  · rintro ⟨placed, hplaced, hrole⟩
    exact ⟨placed, hplaced, id, hrole, hkind⟩
  · rintro ⟨placed, hplaced, id', hrole, hkind'⟩
    obtain rfl : id' = id := by
      obtain ⟨hid, hat⟩ := List.getElem?_eq_some_iff.1 hkind
      have hlt : id < t.names.length := by
        rwa [ResourceTable.names, List.length_map]
      refine (ResourceTable.kind_named_iff ht hlt).1 ⟨kind, hkind', ?_⟩
      simp [ResourceTable.names, hat]
    exact ⟨placed, hplaced, hrole⟩

/-- A place holds one call at most. -/
theorem placedCall_unique {placed placed' : PlacedCall} (h : placed ∈ classCalls unit)
    (h' : placed' ∈ classCalls unit) (hsite : placed.site = placed'.site) : placed = placed' := by
  obtain ⟨⟨j, i⟩, call⟩ := placed
  obtain ⟨site, call'⟩ := placed'
  obtain rfl : (j, i) = site := hsite
  obtain ⟨m, hm, hcode⟩ := mem_classCalls.1 h
  obtain ⟨m', hm', hcode'⟩ := mem_classCalls.1 h'
  obtain rfl : m = m' := Option.some.inj (hm.symm.trans hm')
  obtain rfl := Instruction.invoke.inj (Option.some.inj (hcode.symm.trans hcode'))
  rfl

/-- In the coarse pass a call brings up what its kind calls for. -/
theorem Checker.Scanned.coarse_call (hc : c.Scanned t options unit) (ht : t.names.Nodup)
    {placed : PlacedCall} (hplaced : placed ∈ classCalls unit) :
    (coarseFinding? t c.context placed).toList =
      (t.obtained? placed.call).toList.flatMap (coarseFindings t unit placed.site) := by
  -- what it brings up is about the kind that it obtains
  have hform : ∀ x, coarseFinding? t c.context placed = some x →
      ∃ kind, t.obtained? placed.call = some kind ∧ x = ⟨placed.site, .leaked, kind⟩ := by
    intro x hx
    obtain ⟨id, kind, hrole, -, -, hkind, rfl⟩ := coarseFinding?_eq_some.1 hx
    exact ⟨kind, ResourceTable.obtained?_eq_some.2 ⟨id, hrole, hkind⟩, rfl⟩
  cases hobtained : t.obtained? placed.call with
  | none =>
    have hnone : coarseFinding? t c.context placed = none := by
      rw [Option.eq_none_iff_forall_ne_some]
      intro x hx
      obtain ⟨kind, hkind, -⟩ := hform x hx
      rw [hobtained] at hkind
      cases hkind
    rw [hnone]
    rfl
  | some kind =>
    have hfinding : coarseFinding? t c.context placed = some ⟨placed.site, .leaked, kind⟩ ↔
        kind.flowChecked = false ∧
          ¬∃ other ∈ classCalls unit, t.released? other.call = some kind := by
      constructor
      · intro hx
        obtain ⟨-, id, m, hat, hunchecked, hunreleased⟩ :=
          hc.mem_coarse.1 (List.mem_filterMap.2 ⟨placed, hplaced, hx⟩)
        rw [releasedIn_iff_released? ht hat.kind] at hunreleased
        exact ⟨hunchecked, hunreleased⟩
      · rintro ⟨hunchecked, hunreleased⟩
        obtain ⟨id, m, hat⟩ := obtainedAt_iff_obtained?.2 ⟨placed.call, hplaced, hobtained⟩
        rw [← releasedIn_iff_released? ht hat.kind] at hunreleased
        have hmem : ⟨placed.site, .leaked, kind⟩ ∈
            (classCalls unit).filterMap (coarseFinding? t c.context) :=
          hc.mem_coarse.2 ⟨rfl, id, m, hat, hunchecked, hunreleased⟩
        obtain ⟨placed', hplaced', hx⟩ := List.mem_filterMap.1 hmem
        obtain ⟨_, _, -, -, -, -, heq⟩ := coarseFinding?_eq_some.1 hx
        obtain rfl := placedCall_unique hplaced hplaced' (Finding.mk.inj heq).1
        exact hx
    rw [Option.toList_some, List.flatMap_singleton, coarseFindings]
    split_ifs with hreported
    · rw [hfinding.2 hreported]
      rfl
    · have hnone : coarseFinding? t c.context placed = none := by
        rw [Option.eq_none_iff_forall_ne_some]
        intro x hx
        obtain ⟨kind', hkind', rfl⟩ := hform x hx
        obtain rfl := Option.some.inj (hobtained.symm.trans hkind')
        exact hreported (hfinding.1 hx)
      rw [hnone]
      rfl

/-- What comes up does not depend on how kinds are numbered. -/
theorem allFindings_eq (hc : c.Scanned t options unit) (ht : t.names.Nodup) :
    allFindings t options unit c = broughtUp t options unit := by
  have hcoarse : (classCalls unit).filterMap (Checker.coarseFinding? t c.context) =
      (classCalls unit).flatMap fun placed =>
        (t.obtained? placed.call).toList.flatMap (coarseFindings t unit placed.site) := by
    rw [List.filterMap_eq_flatMap_toList]
    exact List.flatMap_congr fun placed hplaced => hc.coarse_call ht hplaced
  unfold allFindings broughtUp
  rw [precise_eq, ← hcoarse]
  congr 1
  cases hneeds : c.context.needsRescan with
  | true => rw [Bool.true_and]
  | false =>
    -- no second pass is asked for, and it would bring up nothing
    have hnone : (classCalls unit).filterMap (Checker.coarseFinding? t c.context) = [] := by
      rw [List.eq_nil_iff_forall_not_mem]
      intro x hx
      obtain ⟨-, id, m, hat, hunchecked, hunreleased⟩ := hc.mem_coarse.1 hx
      have hsuspect : c.context.needsRescan = true :=
        hc.needsRescan_iff.2 ⟨id, x.kind, ⟨_, _, m, hat⟩, hunreleased, .inl hunchecked⟩
      rw [hneeds] at hsuspect
      cases hsuspect
    rw [hnone]
    simp

end BroughtUp

/-! ## Once for each place and code -/

section Noted

variable {t : ResourceTable} {options : CheckOptions} {unit : ClassFile} {name : String}
  {fs fs' xs : List Finding} {x : Finding} {p : Finding → Bool}

/-- Leaving out some of what comes up does not leave out anything else, but what came up again may
now come up first. -/
theorem foldl_noteFinding_filter (hsublist : (fs.filter p).Sublist fs')
    (hkeys : fs'.map Finding.key ⊆ fs.map Finding.key) :
    ((xs.foldl noteFinding fs).filter p).Sublist ((xs.filter p).foldl noteFinding fs') := by
  induction xs generalizing fs fs' with
  | nil => exact hsublist
  | cons x xs ih =>
    rw [List.foldl_cons]
    cases hp : p x with
    | true =>
      rw [List.filter_cons_of_pos hp, List.foldl_cons]
      by_cases hmem : x.key ∈ fs.map Finding.key
      · rw [noteFinding_of_mem hmem]
        by_cases hmem' : x.key ∈ fs'.map Finding.key
        · rw [noteFinding_of_mem hmem']
          exact ih hsublist hkeys
        · -- what came up before it is left out, so it is noted now
          rw [noteFinding_of_not_mem hmem']
          refine ih (hsublist.trans (List.sublist_append_left _ _)) ?_
          rw [List.map_append, List.append_subset]
          exact ⟨hkeys, by simpa using hmem⟩
      · have hmem' : x.key ∉ fs'.map Finding.key := fun h => hmem (hkeys h)
        rw [noteFinding_of_not_mem hmem, noteFinding_of_not_mem hmem']
        refine ih ?_ ?_
        · rw [List.filter_append, List.filter_cons_of_pos hp, List.filter_nil]
          exact hsublist.append_right [x]
        · rw [List.map_append, List.map_append, List.append_subset]
          exact ⟨List.subset_append_of_subset_left _ hkeys, List.subset_append_right _ _⟩
    | false =>
      rw [List.filter_cons_of_neg (by simp [hp])]
      by_cases hmem : x.key ∈ fs.map Finding.key
      · rw [noteFinding_of_mem hmem]
        exact ih hsublist hkeys
      · rw [noteFinding_of_not_mem hmem]
        refine ih ?_ ?_
        · rw [List.filter_append, List.filter_cons_of_neg (by simp [hp]), List.filter_nil,
            List.append_nil]
          exact hsublist
        · rw [List.map_append]
          exact List.subset_append_of_subset_left _ hkeys

/-- The findings of a check, in the order in which they come up. -/
def findings (t : ResourceTable) (options : CheckOptions) (unit : ClassFile) : List Finding :=
  (broughtUp t options unit).foldl noteFinding []

theorem reports_findings (ht : t.names.Nodup) (options : CheckOptions) (unit : ClassFile) :
    Reports t options unit (findings t options unit) ∧
      (checkUnit t options unit).diagnostics =
        Diagnostic.sort ((findings t options unit).map (Finding.diagnostic t options unit)) := by
  obtain ⟨c, hc, -, -, hdiagnostics⟩ := checkUnit_spec options unit ht
  have heq : (allFindings t options unit c).foldl noteFinding [] = findings t options unit := by
    rw [allFindings_eq hc ht]
    rfl
  have hreports := reports_allFindings hc
  rw [heq] at hreports hdiagnostics
  exact ⟨hreports, hdiagnostics⟩

theorem mem_broughtUp_leaked (ht : t.names.Nodup) (hx : x.code = .leaked) :
    x ∈ broughtUp t options unit ↔ ToReport t options unit x.site x.code x.kind := by
  obtain ⟨c, hc, -⟩ := checkUnit_spec options unit ht
  rw [← allFindings_eq hc ht]
  exact mem_allFindings_leaked hc hx

/-- A call was reported as a use after release for the kind that is left out, and is now reported
for another kind. -/
structure TakenOver (t : ResourceTable) (options : CheckOptions) (unit : ClassFile)
    (name : String) (x : Finding) : Prop where
  code : x.code = .alreadyRecycled
  before : ∃ kind, kind.name = name ∧ ToReport t options unit x.site .alreadyRecycled kind
  after : ToReport (t.remove [name]) options unit x.site .alreadyRecycled x.kind

theorem mem_findings_iff : x ∈ findings t options unit ↔
    (broughtUp t options unit).find? (·.key = x.key) = some x := by
  unfold findings
  rw [mem_foldl_noteFinding]
  simp

theorem takenOver_iff (ht : t.names.Nodup) (h : t.StandsApart unit name) :
    x ∈ findings (t.remove [name]) options unit ∧ x ∉ findings t options unit ↔
      TakenOver t options unit name x := by
  obtain ⟨hreports, -⟩ := reports_findings ht options unit
  obtain ⟨hreports', -⟩ :=
    reports_findings (ResourceTable.nodup_names_remove ht [name]) options unit
  have hfilter := broughtUp_remove h options
  constructor
  · rintro ⟨hnew, hold⟩
    have hreport := (hreports'.exactly x).1 hnew
    -- something came up before it at its place with its code
    have hup : x ∈ broughtUp t options unit := by
      have hmem := List.mem_of_find?_eq_some (mem_findings_iff.1 hnew)
      rw [hfilter] at hmem
      exact List.mem_of_mem_filter hmem
    obtain ⟨y, hy⟩ : ∃ y, (broughtUp t options unit).find? (·.key = x.key) = some y :=
      Option.isSome_iff_exists.1 (List.find?_isSome.2 ⟨x, hup, decide_eq_true rfl⟩)
    have hkey : y.key = x.key := by simpa using List.find?_some hy
    have hfirst : y ∈ findings t options unit := by
      rw [mem_findings_iff, hkey]
      exact hy
    have hne : x ≠ y := by
      rintro rfl
      exact hold hfirst
    -- and is left out, since it would still come up first
    have hname : y.kind.name = name := by
      by_contra hother
      have hfound : (broughtUp (t.remove [name]) options unit).find? (·.key = x.key) = some y := by
        rw [hfilter, find?_filter_eq, hy, Option.filter_some, if_pos]
        · simpa using hother
        · intro a ha hleft
          rw [hy] at ha
          obtain rfl := Option.some.inj ha
          simp [hother] at hleft
      exact hne (Option.some.inj ((mem_findings_iff.1 hnew).symm.trans hfound))
    obtain ⟨hsite, hcode⟩ := Prod.mk.inj hkey
    have hreport' := (hreports.exactly y).1 hfirst
    cases hx : x.code with
    | leaked =>
      -- leaks agree if they agree in place
      exact absurd ((hreports.exactly x).2 ((mem_broughtUp_leaked ht hx).1 hup)) hold
    | alreadyRecycled =>
      rw [hx] at hreport hcode
      rw [hcode, hsite] at hreport'
      exact ⟨hx, ⟨y.kind, hname, hreport'⟩, hreport⟩
  · rintro ⟨hcode, ⟨kind, hname, hbefore⟩, hafter⟩
    have hnew : x ∈ findings (t.remove [name]) options unit :=
      (hreports'.exactly x).2 (hcode ▸ hafter)
    refine ⟨hnew, ?_⟩
    intro hold
    have hbefore' : (⟨x.site, .alreadyRecycled, kind⟩ : Finding) ∈ findings t options unit :=
      (hreports.exactly _).2 hbefore
    have hsame := hreports.eq_of_key hold hbefore' (Prod.ext rfl hcode)
    have hup := List.mem_of_find?_eq_some (mem_findings_iff.1 hnew)
    rw [hfilter, List.mem_filter] at hup
    have hother : x.kind.name ≠ name := by simpa using hup.2
    rw [hsame] at hother
    exact hother hname

theorem findings_filter_sublist (h : t.StandsApart unit name) (options : CheckOptions) :
    ((findings t options unit).filter (·.kind.name != name)).Sublist
      (findings (t.remove [name]) options unit) := by
  unfold findings
  rw [broughtUp_remove h]
  exact foldl_noteFinding_filter (List.Sublist.refl _) (List.Subset.refl _)

/-- What is reported without the kind: what was reported about other kinds, and what is taken
over. -/
theorem findings_remove_perm (ht : t.names.Nodup) (h : t.StandsApart unit name)
    (options : CheckOptions) :
    ∃ added : List Finding, (added.map Finding.key).Nodup ∧
      (∀ x, x ∈ added ↔ TakenOver t options unit name x) ∧
        (findings (t.remove [name]) options unit).Perm
          ((findings t options unit).filter (·.kind.name != name) ++ added) := by
  obtain ⟨hreports, -⟩ := reports_findings ht options unit
  obtain ⟨hreports', -⟩ :=
    reports_findings (ResourceTable.nodup_names_remove ht [name]) options unit
  let old (x : Finding) : Bool := decide (x ∈ findings t options unit)
  have hsublist := findings_filter_sublist h options
  refine ⟨(findings (t.remove [name]) options unit).filter (!old ·), ?_, ?_, ?_⟩
  · exact hreports'.once.sublist (List.filter_sublist.map _)
  · intro x
    rw [← takenOver_iff ht h, List.mem_filter]
    simp [old]
  · refine (List.filter_append_perm old _).symm.trans (List.Perm.append_right _ ?_)
    rw [List.perm_ext_iff_of_nodup (hreports'.once.of_map.filter _)
      (hreports.once.of_map.filter _)]
    intro x
    constructor
    · intro hx
      obtain ⟨hnew, hold⟩ := List.mem_filter.1 hx
      have hup := List.mem_of_find?_eq_some (mem_findings_iff.1 hnew)
      rw [broughtUp_remove h, List.mem_filter] at hup
      exact List.mem_filter.2 ⟨of_decide_eq_true hold, hup.2⟩
    · intro hx
      exact List.mem_filter.2 ⟨hsublist.subset hx, decide_eq_true (List.mem_of_mem_filter hx)⟩

/-- The diagnostics about other kinds keep their order. -/
theorem sort_filter_resource (t : ResourceTable) (options : CheckOptions) (unit : ClassFile)
    (fs : List Finding) (name : String) :
    (Diagnostic.sort (fs.map (Finding.diagnostic t options unit))).filter
        (·.resource != some name) =
      Diagnostic.sort ((fs.filter (·.kind.name != name)).map
        (Finding.diagnostic t options unit)) := by
  rw [← Diagnostic.sort_filter, List.filter_map]
  congr 3
  funext x
  simp [Finding.diagnostic_eq, bne]

/-- The words of a finding do not depend on the table. -/
theorem diagnostic_remove (t : ResourceTable) (options : CheckOptions) (unit : ClassFile)
    (name : String) : Finding.diagnostic (t.remove [name]) options unit =
      Finding.diagnostic t options unit := by
  funext x
  rw [Finding.diagnostic_eq, Finding.diagnostic_eq]

end Noted

end PoolLint

import PoolLint.Proofs.Check.Disabling

/-!
# What the coarse pass reports

The diagnostics of a class are those that the first pass has submitted and those that the second
pass adds (`checkUnit_diagnostics_append`). The second pass adds one for each place where an
instance is obtained of a kind that is not followed through methods and that no call of the class
releases (`mem_coarseDiagnostics`).

A call has one role only, so where the releases of several kinds cover it, it releases the first of
these. A kind goes unreported by the coarse pass as soon as some call releases it in this sense
(`coarse_reports_unreleased`). A call that its release covers is not enough, if that of an earlier
kind does as well (`coarse_reports_released`).
-/

namespace PoolLint

open PoolLint.Bytecode PoolLint.Flow

/-! ## The diagnostics of each pass -/

/-- The checker after the first pass over a class. -/
def firstPass (t : ResourceTable) (options : CheckOptions) (unit : ClassFile) : Checker :=
  (Checker.new t options).beforeUnit.scan unit

/-- The checker with which the second pass begins, if there is one. -/
def secondPass? (t : ResourceTable) (options : CheckOptions) (unit : ClassFile) :
    Option Checker :=
  let (c, requested) := (firstPass t options unit).afterUnit
  let (c, accepted) := if requested && options.rescan then c.beginRescan else (c, false)
  if accepted then some c else none

/-- What the first pass submits. -/
def preciseDiagnostics (t : ResourceTable) (options : CheckOptions) (unit : ClassFile) :
    List Diagnostic :=
  (firstPass t options unit).collector.submitted

/-- What the second pass submits in addition. -/
def coarseDiagnostics (t : ResourceTable) (options : CheckOptions) (unit : ClassFile) :
    List Diagnostic :=
  match secondPass? t options unit with
  | some c => (c.scan unit).collector.submitted.drop c.collector.submitted.length
  | none => []

section Passes

variable {t : ResourceTable} {options : CheckOptions} {unit : ClassFile} {c : Checker}

theorem Checker.beginRescan_collector (c : Checker) :
    c.beginRescan.1.collector = c.collector := by
  unfold beginRescan
  split_ifs <;> rfl

/-- A report consists of what the last pass leaves behind. -/
theorem checkUnit_diagnostics_eq (t : ResourceTable) (options : CheckOptions)
    (unit : ClassFile) : (checkUnit t options unit).diagnostics =
      match secondPass? t options unit with
      | some c => (c.scan unit).finish
      | none => (firstPass t options unit).finish := by
  unfold checkUnit secondPass? firstPass
  generalize (Checker.new t options).beforeUnit.scan unit = c
  have hended : c.afterUnit.1.finish = c.finish := by
    rw [Checker.finish, Checker.afterUnit_collector, Checker.finish]
  simp only
  by_cases hallowed : (c.afterUnit.2 && options.rescan) = true
  · rw [if_pos hallowed]
    by_cases haccepted : c.afterUnit.1.beginRescan.2 = true
    · simp only [haccepted, if_true]
      rw [Checker.finish, Checker.afterUnit_collector, Checker.finish]
    · simp only [haccepted, Bool.false_eq_true, if_false]
      rw [Checker.finish, Checker.beginRescan_collector, ← hended, Checker.finish]
  · rw [if_neg hallowed]
    exact hended

theorem firstPass_scanned (ht : t.names.Nodup) (options : CheckOptions) (unit : ClassFile) :
    (firstPass t options unit).Scanned t options unit :=
  Checker.precisePass_scanned ht

/-- There is a second pass if it is allowed and some kind looks leaky. -/
theorem secondPass?_eq (ht : t.names.Nodup) (options : CheckOptions) (unit : ClassFile) :
    secondPass? t options unit =
      if (firstPass t options unit).context.needsRescan && options.rescan then
        some (firstPass t options unit).rescanning
      else none := by
  have hc := firstPass_scanned ht options unit
  unfold secondPass?
  generalize firstPass t options unit = c at hc
  simp only [Checker.afterUnit_scanning hc.phase hc.requested]
  cases c.context.needsRescan with
  | false => rfl
  | true =>
    cases options.rescan with
    | false => rfl
    | true => rfl

/-! ## The findings of the coarse pass -/

/-- What comes up in the coarse pass comes up at different places. -/
theorem nodup_coarse (t : ResourceTable) (ctx : UnitContext) (unit : ClassFile) :
    (((classCalls unit).filterMap (Checker.coarseFinding? t ctx)).map Finding.key).Nodup := by
  rw [List.Nodup, List.pairwise_map, List.pairwise_filterMap]
  refine (classCalls_sorted unit).imp ?_
  intro a b hab x hx y hy
  obtain ⟨-, -, -, -, -, -, rfl⟩ := coarseFinding?_eq_some.1 hx
  obtain ⟨-, -, -, -, -, -, rfl⟩ := coarseFinding?_eq_some.1 hy
  exact fun hkey => hab.ne (Prod.mk.inj hkey).1

/-- It comes up at places where nothing was reported as leaked in the precise pass, since the kind
that is obtained there was not followed. -/
theorem Checker.Scanned.coarse_new (hc : c.Scanned t options unit) {x : Finding}
    (hx : x ∈ (classCalls unit).filterMap (coarseFinding? t c.context)) : x.key ∉
      (((flowOutcomes t unit).flatMap (outcomeFindings t)).foldl noteFinding []).map
        Finding.key := by
  obtain ⟨hcode, id, m, hat, hunchecked, -⟩ := hc.mem_coarse.1 hx
  intro hmem
  obtain ⟨y, hy, hkey⟩ := List.mem_map.1 hmem
  obtain ⟨hsite, hcode'⟩ := Prod.mk.inj hkey
  have hup := ((mem_foldl_noteFinding.1 hy).resolve_left List.not_mem_nil).2
  obtain ⟨o, ho, hmem⟩ := List.mem_flatMap.1 (List.mem_of_find?_eq_some hup)
  obtain ⟨kind, m', report, hat', hchecked, -, hreported⟩ := (mem_outcomeFindings ho).1 hmem
  obtain ⟨place, code, kind'⟩ := y
  obtain rfl : code = .leaked := hcode'.trans hcode
  obtain rfl : place = x.site := hsite
  obtain ⟨hplace, -⟩ := mem_reportFindings_leaked.1 hreported
  rw [← hplace] at hat'
  obtain ⟨-, hkind, -⟩ := hat.unique hat'
  rw [hkind, hchecked] at hunchecked
  cases hunchecked

/-- So all of it is submitted, in the order of the calls. -/
theorem Checker.Scanned.coarse_submitted (hc : c.Scanned t options unit) :
    (c.rescanning.scan unit).collector.submitted = c.collector.submitted ++
      ((classCalls unit).filterMap (coarseFinding? t c.context)).map
        (Finding.diagnostic t options unit) := by
  have hshows := hc.coarsePass_shows.1
  rw [foldl_noteFinding_of_new (nodup_coarse t c.context unit) fun x => hc.coarse_new] at hshows
  show (c.rescanning.coarsePass unit).collector.submitted = _
  rw [hshows.submitted, List.map_append, hc.shows.submitted]

theorem coarseDiagnostics_eq (ht : t.names.Nodup) (options : CheckOptions) (unit : ClassFile) :
    coarseDiagnostics t options unit =
      if (firstPass t options unit).context.needsRescan && options.rescan then
        ((classCalls unit).filterMap
          (Checker.coarseFinding? t (firstPass t options unit).context)).map
            (Finding.diagnostic t options unit)
      else [] := by
  have hc := firstPass_scanned ht options unit
  unfold coarseDiagnostics
  rw [secondPass?_eq ht]
  split_ifs with hsecond
  · show ((firstPass t options unit).rescanning.scan unit).collector.submitted.drop
      (firstPass t options unit).collector.submitted.length = _
    rw [hc.coarse_submitted, List.drop_left]
  · rfl

/-- The diagnostics of a class are those of the first pass and those that the second one adds. -/
theorem checkUnit_diagnostics_append (ht : t.names.Nodup) (options : CheckOptions)
    (unit : ClassFile) : (checkUnit t options unit).diagnostics =
      Diagnostic.sort (preciseDiagnostics t options unit ++ coarseDiagnostics t options unit) := by
  have hc := firstPass_scanned ht options unit
  rw [checkUnit_diagnostics_eq, coarseDiagnostics_eq ht, secondPass?_eq ht]
  split_ifs with hsecond
  · show Diagnostic.sort ((firstPass t options unit).rescanning.scan unit).collector.submitted = _
    rw [hc.coarse_submitted]
    rfl
  · rw [List.append_nil]
    rfl

/-- The second pass reports where an instance is obtained of a kind that is not followed through
methods and that no call of the class releases. -/
theorem mem_coarseDiagnostics (ht : t.names.Nodup) {d : Diagnostic} :
    d ∈ coarseDiagnostics t options unit ↔ options.rescan = true ∧ ∃ j i id kind m,
      ObtainedAt t unit j i id kind m ∧ kind.flowChecked = false ∧ ¬ReleasedIn t unit id ∧
        d = (⟨(j, i), .leaked, kind⟩ : Finding).diagnostic t options unit := by
  have hc := firstPass_scanned ht options unit
  rw [coarseDiagnostics_eq ht]
  constructor
  · intro hd
    split_ifs at hd with hsecond
    · obtain ⟨⟨⟨j, i⟩, code, kind⟩, hx, rfl⟩ := List.mem_map.1 hd
      obtain ⟨hcode, id, m, hat, hunchecked, hunreleased⟩ := hc.mem_coarse.1 hx
      obtain rfl : code = .leaked := hcode
      exact ⟨(Bool.and_eq_true_iff.1 hsecond).2, j, i, id, kind, m, hat, hunchecked, hunreleased,
        rfl⟩
    · cases hd
  · rintro ⟨hrescan, j, i, id, kind, m, hat, hunchecked, hunreleased, rfl⟩
    have hneeds : (firstPass t options unit).context.needsRescan = true :=
      hc.needsRescan_iff.2 ⟨id, kind, ⟨j, i, m, hat⟩, hunreleased, .inl hunchecked⟩
    rw [hneeds, hrescan, Bool.and_self, if_pos rfl]
    exact List.mem_map_of_mem (hc.mem_coarse.2 ⟨rfl, id, m, hat, hunchecked, hunreleased⟩)

end Passes

/-! ## One kind -/

section Kind

variable {t : ResourceTable} {options : CheckOptions} {unit : ClassFile} {id : Nat}
  {kind : ResourceKind}

/-- A kind is released if its release covers a call of the class that no release of an earlier kind
covers. -/
theorem releasedIn_iff_first (hkind : t.kind? id = some kind) : ReleasedIn t unit id ↔
    ∃ placed ∈ classCalls unit, kind.isRelease placed.call = true ∧
      ∀ earlier ∈ t.kinds.take id, earlier.isRelease placed.call = false := by
  rw [releasedIn_iff]
  constructor
  · rintro ⟨placed, hmem, hrole⟩
    obtain ⟨kind', hkind', hrelease, hbefore⟩ := releases_iff_first.1 hrole
    obtain rfl : kind = kind' := Option.some.inj (hkind.symm.trans hkind')
    exact ⟨placed, hmem, hrelease, hbefore⟩
  · rintro ⟨placed, hmem, hrelease, hbefore⟩
    exact ⟨placed, hmem, releases_iff_first.2 ⟨kind, hkind, hrelease, hbefore⟩⟩

/-- The coarse pass reports a kind if it may be made, the kind is obtained and not followed through
methods, and no call of the class releases it. -/
theorem coarse_about_iff (ht : t.names.Nodup) (hkind : t.kind? id = some kind) :
    (∃ d ∈ coarseDiagnostics t options unit, d.resource = some kind.name) ↔
      options.rescan = true ∧ kind.flowChecked = false ∧
        (∃ placed ∈ classCalls unit, t.classify placed.call = some (.obtain id)) ∧
          ¬ReleasedIn t unit id := by
  constructor
  · rintro ⟨d, hd, hname⟩
    obtain ⟨hrescan, j, i, id', kind', m, hat, hunchecked, hunreleased, rfl⟩ :=
      (mem_coarseDiagnostics ht).1 hd
    rw [Finding.diagnostic_eq] at hname
    -- the name of the kind tells its position
    obtain rfl : id = id' :=
      ResourceTable.eq_of_name_eq ht hkind hat.kind (Option.some.inj hname).symm
    obtain rfl : kind = kind' := Option.some.inj (hkind.symm.trans hat.kind)
    obtain ⟨call, hmem, hrole⟩ := obtainedAt_iff.1 ⟨kind, m, hat⟩
    exact ⟨hrescan, hunchecked, ⟨_, hmem, hrole⟩, hunreleased⟩
  · rintro ⟨hrescan, hunchecked, ⟨⟨⟨j, i⟩, call⟩, hmem, hrole⟩, hunreleased⟩
    obtain ⟨kind', m, hat⟩ := obtainedAt_iff.2 ⟨call, hmem, hrole⟩
    obtain rfl : kind = kind' := Option.some.inj (hkind.symm.trans hat.kind)
    refine ⟨_, (mem_coarseDiagnostics ht).2
      ⟨hrescan, j, i, id, kind, m, hat, hunchecked, hunreleased, rfl⟩, ?_⟩
    rw [Finding.diagnostic_eq]

end Kind

/-- With every table that comes from settings, the diagnostics of a class are those of the two
passes in order. If the release of a kind covers some call of the class, and that of no earlier kind
does, then no diagnostic of the coarse pass is about the kind. Such diagnostics there are exactly if
the second pass is allowed, the kind is obtained and not followed through methods, and every call
that its release covers is covered by the release of an earlier kind. -/
theorem coarse_reports_unreleased (disabled : List String) (extra : List ResourceKind)
    (options : CheckOptions) (unit : ClassFile) {id : Nat} {kind : ResourceKind}
    (hkind : (ResourceTable.configured disabled extra).kind? id = some kind) :
    let t := ResourceTable.configured disabled extra
    (checkUnit t options unit).diagnostics =
        Diagnostic.sort (preciseDiagnostics t options unit ++ coarseDiagnostics t options unit) ∧
      ((∃ placed ∈ classCalls unit, kind.isRelease placed.call = true ∧
          ∀ earlier ∈ t.kinds.take id, earlier.isRelease placed.call = false) →
        ∀ d ∈ coarseDiagnostics t options unit, d.resource ≠ some kind.name) ∧
      ((∃ d ∈ coarseDiagnostics t options unit, d.resource = some kind.name) ↔
        options.rescan = true ∧ kind.flowChecked = false ∧
          (∃ placed ∈ classCalls unit, t.classify placed.call = some (.obtain id)) ∧
          ∀ placed ∈ classCalls unit, kind.isRelease placed.call = true →
            ∃ earlier ∈ t.kinds.take id, earlier.isRelease placed.call = true) := by
  intro t
  have ht : t.names.Nodup := ResourceTable.nodup_names_configured disabled extra
  refine ⟨checkUnit_diagnostics_append ht options unit, ?_, ?_⟩
  · intro hreleased d hd hname
    obtain ⟨-, -, -, hunreleased⟩ := (coarse_about_iff ht hkind).1 ⟨d, hd, hname⟩
    exact hunreleased ((releasedIn_iff_first hkind).2 hreleased)
  · rw [coarse_about_iff ht hkind, releasedIn_iff_first hkind]
    simp only [not_exists, not_and, not_forall, Bool.not_eq_false, exists_prop]
    exact Iff.rfl

/-! ### A release that two kinds share -/

/-- Gives back a note and a message, which are released alike. -/
def releasedNoteAndMessage : ClassFile where
  name := "Notes"
  sourceFile := none
  methods := [plainMethod 0
    [.invoke ⟨.static, "app/Notes", "take", "()Landroid/os/Message;"⟩,
      .invoke ⟨.virtual, "android/os/Message", "recycle", "()V"⟩,
      .invoke ⟨.static, "android/os/Message", "obtain", "()Landroid/os/Message;"⟩,
      .invoke ⟨.virtual, "android/os/Message", "recycle", "()V"⟩, .ret]]

set_option maxRecDepth 10000 in
/-- Both releases count for messages, which come first in the table. So the message is not reported
by the coarse pass, but the note is. -/
theorem coarse_reports_unreleased_of_note :
    let t := ResourceTable.configured [] [note]
    t.kind? 2 = some ResourceTable.message ∧ t.kind? 5 = some note ∧
      (∀ d ∈ coarseDiagnostics t ⟨false, true, .warning⟩ releasedNoteAndMessage,
        d.resource ≠ some "Message") ∧
      ∃ d ∈ coarseDiagnostics t ⟨false, true, .warning⟩ releasedNoteAndMessage,
        d.resource = some "Note" := by
  intro t
  have hmessage : t.kind? 2 = some ResourceTable.message := by decide
  have hnote : t.kind? 5 = some note := by decide
  obtain ⟨-, hunreported, -⟩ := coarse_reports_unreleased [] [note] ⟨false, true, .warning⟩
    releasedNoteAndMessage hmessage
  obtain ⟨-, -, hexact⟩ := coarse_reports_unreleased [] [note] ⟨false, true, .warning⟩
    releasedNoteAndMessage hnote
  exact ⟨hmessage, hnote, hunreported (by decide), hexact.2 (by decide)⟩

set_option maxRecDepth 10000 in
/-- The release of notes covers a call of the class, and still the coarse pass reports a note as
leaked. -/
theorem coarse_reports_released :
    let t := ResourceTable.configured [] [note]
    t.kind? 5 = some note ∧
      (∃ placed ∈ classCalls releasedNoteAndMessage, note.isRelease placed.call = true) ∧
      ∃ d ∈ coarseDiagnostics t ⟨false, true, .warning⟩ releasedNoteAndMessage,
        d ∈ (checkUnit t ⟨false, true, .warning⟩ releasedNoteAndMessage).diagnostics ∧
          d.code = FindingKind.leaked.code ∧ d.resource = some "Note" := by
  intro t
  have ht : t.names.Nodup := ResourceTable.nodup_names_configured [] [note]
  obtain ⟨m, hat⟩ : ∃ m, ObtainedAt t releasedNoteAndMessage 0 0 5 note m :=
    ⟨_, rfl, ⟨_, rfl, by decide⟩, by decide⟩
  have hunreleased : ¬ReleasedIn t releasedNoteAndMessage 5 := by
    rw [releasedIn_iff]
    decide
  have hd : (⟨(0, 0), .leaked, note⟩ : Finding).diagnostic t ⟨false, true, .warning⟩
      releasedNoteAndMessage ∈ coarseDiagnostics t ⟨false, true, .warning⟩
        releasedNoteAndMessage :=
    (mem_coarseDiagnostics ht).2 ⟨rfl, 0, 0, 5, note, m, hat, rfl, hunreleased, rfl⟩
  refine ⟨hat.kind, by decide, _, hd, ?_, ?_, ?_⟩
  · rw [checkUnit_diagnostics_append ht]
    exact (Diagnostic.sort_perm _).mem_iff.2 (List.mem_append_right _ hd)
  · rw [Finding.diagnostic_eq]
  · rw [Finding.diagnostic_eq]
    rfl

end PoolLint

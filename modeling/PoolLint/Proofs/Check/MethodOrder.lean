import PoolLint.Proofs.Check.BatchOrder
import PoolLint.Proofs.Check.Flags

/-!
# The order of the methods of a class

A finding is placed by the number of its method, so another order of the methods renumbers all
findings, and it also changes the order in which they come up. Neither is to be seen from outside:
what is reported of a method depends on the method, and on the rest of the class only through the
kinds that are released in it (`ToReport.elsewhere`). Two findings of a class are told apart by
what they say of their methods and instructions, provided that methods differ in name or descriptor.
Then the sorted list, the flags and the counts are the same for every order of the methods
(`checkUnit_methodOrder`).
-/

namespace PoolLint

open PoolLint.Bytecode PoolLint.Flow

section Elsewhere

variable {t : ResourceTable} {options : CheckOptions} {unit unit' : ClassFile} {j j' i id : Nat}
  {kind : ResourceKind} {m : Method}

/-! ## The same method in another place -/

theorem exists_place (hsub : unit.methods ⊆ unit'.methods) (hm : unit.methods[j]? = some m) :
    ∃ j' : Nat, unit'.methods[j']? = some m :=
  List.mem_iff_getElem?.1 (hsub (List.mem_of_getElem? hm))

theorem ObtainedAt.elsewhere (h : ObtainedAt t unit j i id kind m)
    (hm : unit'.methods[j']? = some m) : ObtainedAt t unit' j' i id kind m :=
  ⟨hm, h.call, h.kind⟩

theorem ReleasedIn.mono (h : ReleasedIn t unit id) (hsub : unit.methods ⊆ unit'.methods) :
    ReleasedIn t unit' id := by
  obtain ⟨j, i, m, call, hm, hcode, hrole⟩ := h
  obtain ⟨j', hm'⟩ := exists_place hsub hm
  exact ⟨j', i, m, call, hm', hcode, hrole⟩

theorem Suspect.mono (h : Suspect t unit id kind) (hsub : unit.methods ⊆ unit'.methods)
    (hsub' : unit'.methods ⊆ unit.methods) : Suspect t unit' id kind := by
  obtain ⟨⟨j, i, m, hat⟩, hunreleased, hunhandled⟩ := h
  obtain ⟨j', hm'⟩ := exists_place hsub hat.method
  refine ⟨⟨j', i, m, hat.elsewhere hm'⟩, fun hreleased => hunreleased (hreleased.mono hsub'), ?_⟩
  refine hunhandled.imp_right ?_
  intro hfails k i' m' hat'
  obtain ⟨k', hm''⟩ := exists_place hsub' hat'.method
  exact hfails k' i' m' (hat'.elsewhere hm'')

theorem CheckFails.elsewhere (h : CheckFails t unit j i) (hm : unit.methods[j]? = some m)
    (hm' : unit'.methods[j']? = some m) : CheckFails t unit' j' i := by
  obtain ⟨id, kind, m₁, e, hat, hchecked, he⟩ := h
  obtain rfl : m₁ = m := Option.some.inj (hat.method.symm.trans hm)
  exact ⟨id, kind, m₁, e, hat.elsewhere hm', hchecked, he⟩

theorem CheckFails.method (h : CheckFails t unit j i) : ∃ m, unit.methods[j]? = some m := by
  obtain ⟨_, _, m, _, hat, -⟩ := h
  exact ⟨m, hat.method⟩

theorem ToReport.method {site : Site} {code : FindingKind}
    (h : ToReport t options unit site code kind) : ∃ m, unit.methods[site.1]? = some m := by
  cases h with
  | leaked hat => exact ⟨_, hat.method⟩
  | alreadyRecycled hat => exact ⟨_, hat.method⟩
  | unreleased _ hat => exact ⟨_, hat.method⟩

/-- What is reported of a method is reported of it wherever it stands among the same methods. -/
theorem ToReport.elsewhere {code : FindingKind} (h : ToReport t options unit (j, i) code kind)
    (hm : unit.methods[j]? = some m) (hm' : unit'.methods[j']? = some m)
    (hsub' : unit'.methods ⊆ unit.methods) : ToReport t options unit' (j', i) code kind := by
  have hsame : ∀ {i id kind m₁}, ObtainedAt t unit j i id kind m₁ →
      ObtainedAt t unit' j' i id kind m₁ := by
    intro i id kind m₁ hat
    obtain rfl : m₁ = m := Option.some.inj (hat.method.symm.trans hm)
    exact hat.elsewhere hm'
  cases h with
  | leaked hat hchecked hflow hleaked => exact .leaked (hsame hat) hchecked hflow hleaked
  | alreadyRecycled hat hchecked hflow hlisted hfirst =>
    refine .alreadyRecycled (hsame hat) hchecked hflow hlisted ?_
    intro i' id' kind' m' report' hearlier hat' hchecked' hflow'
    obtain rfl : m' = m := Option.some.inj (hat'.method.symm.trans hm')
    exact hfirst i' id' kind' m' report' hearlier (hat'.elsewhere hm) hchecked' hflow'
  | unreleased hrescan hat hunchecked hunreleased =>
    exact .unreleased hrescan (hsame hat) hunchecked
      fun hreleased => hunreleased (hreleased.mono hsub')

/-! ## Flags, the second pass and failed checks -/

theorem seenFlags_handled : (seenFlags t unit id).handled = true ↔ ∃ j i kind m,
    ObtainedAt t unit j i id kind m ∧ kind.flowChecked = true ∧
      ∀ e, checkMethodFlow m i kind ≠ .error e := by
  rw [← not_iff_not, Bool.not_eq_true]
  show ((flowOutcomes t unit).any fun o => !o.failed && decide (o.job.kind = id)) = false ↔ _
  rw [any_handled_eq_false_iff]
  push Not
  rfl

theorem seenFlags_mono (t : ResourceTable) (id : Nat) (hsub : unit.methods ⊆ unit'.methods) :
    ((seenFlags t unit id).obtained = true → (seenFlags t unit' id).obtained = true) ∧
    ((seenFlags t unit id).released = true → (seenFlags t unit' id).released = true) ∧
    ((seenFlags t unit id).handled = true → (seenFlags t unit' id).handled = true) := by
  refine ⟨?_, ?_, ?_⟩
  · intro h
    obtain ⟨j, i, kind, m, hat⟩ := any_obtain_iff.1 h
    obtain ⟨j', hm'⟩ := exists_place hsub hat.method
    exact any_obtain_iff.2 ⟨j', i, kind, m, hat.elsewhere hm'⟩
  · intro h
    exact any_release_iff.2 ((any_release_iff.1 h).mono hsub)
  · intro h
    obtain ⟨j, i, kind, m, hat, hdone⟩ := seenFlags_handled.1 h
    obtain ⟨j', hm'⟩ := exists_place hsub hat.method
    exact seenFlags_handled.2 ⟨j', i, kind, m, hat.elsewhere hm', hdone⟩

theorem seenFlags_congr (hsub : unit.methods ⊆ unit'.methods)
    (hsub' : unit'.methods ⊆ unit.methods) (t : ResourceTable) :
    seenFlags t unit = seenFlags t unit' := by
  funext id
  obtain ⟨hobtained, hreleased, hhandled⟩ := seenFlags_mono t id hsub
  obtain ⟨hobtained', hreleased', hhandled'⟩ := seenFlags_mono t id hsub'
  rw [KindFlags.mk.injEq]
  exact ⟨Bool.eq_iff_iff.2 ⟨hobtained, hobtained'⟩, Bool.eq_iff_iff.2 ⟨hreleased, hreleased'⟩,
    Bool.eq_iff_iff.2 ⟨hhandled, hhandled'⟩⟩

end Elsewhere

/-! ## Findings without the numbers of their methods -/

/-- A finding with its method in place of the method's number. -/
structure MethodFinding where
  method : Option Method
  instruction : Nat
  code : FindingKind
  kind : ResourceKind

/-- The finding, seen from its method. -/
def Finding.inMethod (unit : ClassFile) (x : Finding) : MethodFinding :=
  ⟨unit.methods[x.site.1]?, x.site.2, x.code, x.kind⟩

/-- The finding in words, for a class of the same name and source file. -/
def MethodFinding.diagnostic (options : CheckOptions) (unit : ClassFile) (x : MethodFinding) :
    Diagnostic where
  severity := options.severity
  code := x.code.code
  message := x.code.message x.kind.simpleName
  help := Template.render [("kind", x.kind.simpleName)] x.code.entry.helpTemplate
  location := x.method.map fun m => .ofInstruction unit m x.instruction
  resource := some x.kind.name

section Reported

variable {t : ResourceTable} {options : CheckOptions} {unit unit' : ClassFile}
  {fs fs' : List Finding} {x x' : Finding}

theorem Finding.diagnostic_inMethod (t : ResourceTable) (options : CheckOptions)
    (unit : ClassFile) (x : Finding) :
    (x.inMethod unit).diagnostic options unit = x.diagnostic t options unit := by
  rw [Finding.diagnostic_eq]
  rfl

/-- Methods that differ have different numbers. -/
theorem site_unique (hmethods : unit.methods.Nodup) {site site' : Site} {m : Method}
    (hm : unit.methods[site.1]? = some m) (hm' : unit.methods[site'.1]? = some m)
    (hinstruction : site.2 = site'.2) : site = site' := by
  obtain ⟨hlt, -⟩ := List.getElem?_eq_some_iff.1 hm
  exact Prod.ext ((List.getElem?_inj hlt hmethods).1 (hm.trans hm'.symm)) hinstruction

/-- What is reported, and nothing twice. -/
structure Reports (t : ResourceTable) (options : CheckOptions) (unit : ClassFile)
    (fs : List Finding) : Prop where
  once : (fs.map Finding.key).Nodup
  exactly : ∀ x, x ∈ fs ↔ ToReport t options unit x.site x.code x.kind

theorem reports_allFindings {c : Checker} (hc : c.Scanned t options unit) :
    Reports t options unit ((allFindings t options unit c).foldl noteFinding []) :=
  ⟨nodup_foldl_noteFinding _ List.nodup_nil, fun _ => mem_findings hc⟩

theorem Reports.eq_of_key (h : Reports t options unit fs) (hx : x ∈ fs) (hx' : x' ∈ fs)
    (hkey : x.key = x'.key) : x = x' :=
  List.inj_on_of_nodup_map h.once hx hx' hkey

theorem Reports.nodup_inMethod (h : Reports t options unit fs) (hmethods : unit.methods.Nodup) :
    (fs.map (Finding.inMethod unit)).Nodup := by
  refine List.Nodup.map_on ?_ h.once.of_map
  intro x hx x' hx' heq
  obtain ⟨hmethod, hinstruction, hcode, -⟩ := MethodFinding.mk.inj heq
  obtain ⟨m, hm⟩ := ((h.exactly x).1 hx).method
  have hsite : x.site = x'.site := site_unique hmethods hm (hmethod ▸ hm) hinstruction
  exact h.eq_of_key hx hx' (Prod.ext hsite hcode)

theorem Reports.inMethod_subset (h : Reports t options unit fs) (h' : Reports t options unit' fs')
    (hsub : unit.methods ⊆ unit'.methods) (hsub' : unit'.methods ⊆ unit.methods) :
    fs.map (Finding.inMethod unit) ⊆ fs'.map (Finding.inMethod unit') := by
  intro y hy
  obtain ⟨x, hx, rfl⟩ := List.mem_map.1 hy
  have hreport := (h.exactly x).1 hx
  obtain ⟨m, hm⟩ := hreport.method
  obtain ⟨j', hm'⟩ := exists_place hsub hm
  refine List.mem_map.2 ⟨⟨(j', x.site.2), x.code, x.kind⟩, ?_, ?_⟩
  · exact (h'.exactly _).2 (hreport.elsewhere hm hm' hsub')
  · simp only [Finding.inMethod, hm, hm']

/-- The same methods give the same findings, in some order. -/
theorem Reports.inMethod_perm (h : Reports t options unit fs) (h' : Reports t options unit' fs')
    (hmethods : unit.methods.Nodup) (hperm : unit'.methods.Perm unit.methods) :
    (fs.map (Finding.inMethod unit)).Perm (fs'.map (Finding.inMethod unit')) := by
  have hmethods' : unit'.methods.Nodup := hperm.nodup_iff.2 hmethods
  rw [List.perm_ext_iff_of_nodup (h.nodup_inMethod hmethods) (h'.nodup_inMethod hmethods')]
  intro y
  exact ⟨fun hy => h.inMethod_subset h' hperm.symm.subset hperm.subset hy,
    fun hy => h'.inMethod_subset h hperm.subset hperm.symm.subset hy⟩

/-- No two findings of a class tie if its methods differ in name or descriptor. -/
theorem Reports.eq_of_ties (h : Reports t options unit fs)
    (hsignatures : (unit.methods.map Method.signature).Nodup) (hx : x ∈ fs) (hx' : x' ∈ fs)
    (hties : (x.diagnostic t options unit).ties (x'.diagnostic t options unit) = true) :
    x = x' := by
  obtain ⟨hlocation, hcode, -⟩ := Diagnostic.ties_iff.1 hties
  obtain ⟨m, hm⟩ := ((h.exactly x).1 hx).method
  obtain ⟨m', hm'⟩ := ((h.exactly x').1 hx').method
  rw [Finding.diagnostic_eq, Finding.diagnostic_eq] at hlocation hcode
  simp only [hm, hm', Option.map_some, Option.some.injEq, Location.ofInstruction,
    Location.mk.injEq] at hlocation
  -- the location tells the method by its signature
  obtain ⟨-, -, hsignature, hinstruction, -⟩ := hlocation
  obtain rfl : m = m' := List.inj_on_of_nodup_map hsignatures (List.mem_of_getElem? hm)
    (List.mem_of_getElem? hm') hsignature
  have hsite : x.site = x'.site := site_unique hsignatures.of_map hm hm' hinstruction
  exact h.eq_of_key hx hx' (Prod.ext hsite (FindingKind.code_injective hcode))

theorem Reports.sort_eq {methods : List Method}
    (h : Reports t options { unit with methods := methods } fs) (h' : Reports t options unit fs')
    (hsignatures : (unit.methods.map Method.signature).Nodup)
    (hperm : methods.Perm unit.methods) :
    Diagnostic.sort (fs.map (Finding.diagnostic t options { unit with methods := methods })) =
      Diagnostic.sort (fs'.map (Finding.diagnostic t options unit)) := by
  let unit₁ : ClassFile := { unit with methods := methods }
  have hdiagnostics : (fs'.map (Finding.diagnostic t options unit)).Perm
      (fs.map (Finding.diagnostic t options unit₁)) := by
    have hinMethod := h'.inMethod_perm h hsignatures.of_map hperm
    have hwords := hinMethod.map (MethodFinding.diagnostic options unit)
    simp only [List.map_map] at hwords
    have hleft : MethodFinding.diagnostic options unit ∘ Finding.inMethod unit =
        Finding.diagnostic t options unit :=
      funext fun x => x.diagnostic_inMethod t options unit
    -- the words depend on name and source file only
    have hright : MethodFinding.diagnostic options unit ∘ Finding.inMethod unit₁ =
        Finding.diagnostic t options unit₁ :=
      funext fun x => x.diagnostic_inMethod t options unit₁
    rw [hleft, hright] at hwords
    exact hwords
  refine (Diagnostic.sort_eq_of_perm ?_ hdiagnostics).symm
  intro d hd e he hties
  obtain ⟨x, hx, rfl⟩ := List.mem_map.1 hd
  obtain ⟨x', hx', rfl⟩ := List.mem_map.1 he
  rw [h'.eq_of_ties hsignatures hx hx' hties]

/-! ## The whole report -/

/-- The findings of a check, in the order in which they come up. -/
theorem exists_reports (ht : t.names.Nodup) (options : CheckOptions) (unit : ClassFile) :
    ∃ fs, Reports t options unit fs ∧ (checkUnit t options unit).diagnostics =
      Diagnostic.sort (fs.map (Finding.diagnostic t options unit)) := by
  obtain ⟨c, hc, -, -, hdiagnostics⟩ := checkUnit_spec options unit ht
  exact ⟨_, reports_allFindings hc, hdiagnostics⟩

theorem mem_diagnostics (ht : t.names.Nodup) {d : Diagnostic} :
    d ∈ (checkUnit t options unit).diagnostics ↔ ∃ x : Finding,
      ToReport t options unit x.site x.code x.kind ∧ d = x.diagnostic t options unit := by
  obtain ⟨fs, hfs, hdiagnostics⟩ := exists_reports ht options unit
  rw [hdiagnostics, (Diagnostic.sort_perm _).mem_iff, List.mem_map]
  constructor
  · rintro ⟨x, hx, rfl⟩
    exact ⟨x, (hfs.exactly x).1 hx, rfl⟩
  · rintro ⟨x, hreport, rfl⟩
    exact ⟨x, (hfs.exactly x).2 hreport, rfl⟩

/-- The places where the precise check is given up, each once. -/
def failedSites (t : ResourceTable) (unit : ClassFile) : List Site :=
  ((flowOutcomes t unit).filter (·.failed)).map (·.job.site)

theorem nodup_failedSites (t : ResourceTable) (unit : ClassFile) : (failedSites t unit).Nodup := by
  unfold failedSites
  rw [List.Nodup, List.pairwise_map]
  exact ((flowOutcomes_sorted t unit).filter _).imp Site.Before.ne

/-- The same methods have as many checks that are given up. -/
theorem length_failedSites_le (hmethods : unit.methods.Nodup)
    (hsub : unit.methods ⊆ unit'.methods) :
    (failedSites t unit).length ≤ (failedSites t unit').length := by
  -- the numbers of the methods differ, so the places are compared by the methods themselves
  let place (unit : ClassFile) (site : Site) : Option Method × Nat :=
    (unit.methods[site.1]?, site.2)
  have hnodup : ((failedSites t unit).map (place unit)).Nodup := by
    refine List.Nodup.map_on ?_ (nodup_failedSites t unit)
    intro site hsite site' hsite' heq
    obtain ⟨hmethod, hinstruction⟩ := Prod.mk.inj heq
    obtain ⟨m, hm⟩ := (mem_failed.1 hsite).method
    exact site_unique hmethods hm (hmethod ▸ hm) hinstruction
  have hsubset : (failedSites t unit).map (place unit) ⊆
      (failedSites t unit').map (place unit') := by
    intro y hy
    obtain ⟨⟨j, i⟩, hsite, rfl⟩ := List.mem_map.1 hy
    have hfails : CheckFails t unit j i := mem_failed.1 hsite
    obtain ⟨m, hm⟩ := hfails.method
    obtain ⟨j', hm'⟩ := exists_place hsub hm
    refine List.mem_map.2 ⟨(j', i), mem_failed.2 (hfails.elsewhere hm hm'), ?_⟩
    simp only [place, hm, hm']
  have hlength := (List.subperm_of_subset hnodup hsubset).length_le
  rwa [List.length_map, List.length_map] at hlength

/-- If no name of a kind repeats, and the methods of a class differ in name or descriptor, then the
report on the class is the same for every order of its methods: the same diagnostics in the same
order, the same flags, the same answer to whether there was a second pass, and the same number of
checks that were given up. -/
theorem checkUnit_methodOrder (ht : t.names.Nodup) (options : CheckOptions) (unit : ClassFile)
    (hsignatures : (unit.methods.map Method.signature).Nodup) (methods : List Method)
    (hperm : methods.Perm unit.methods) :
    checkUnit t options { unit with methods := methods } = checkUnit t options unit := by
  let unit₁ : ClassFile := { unit with methods := methods }
  have hsub : unit₁.methods ⊆ unit.methods := hperm.subset
  have hsub' : unit.methods ⊆ unit₁.methods := hperm.symm.subset
  have hsort :
      (checkUnit t options unit₁).diagnostics = (checkUnit t options unit).diagnostics := by
    obtain ⟨fs, hfs, hdiagnostics⟩ := exists_reports ht options unit
    obtain ⟨fs₁, hfs₁, hdiagnostics₁⟩ := exists_reports ht options unit₁
    rw [hdiagnostics, hdiagnostics₁]
    exact hfs₁.sort_eq hfs hsignatures hperm
  -- whether a kind is suspect depends only on which methods there are
  obtain ⟨c, hc, hrescanned, haborted, -⟩ := checkUnit_spec options unit ht
  obtain ⟨c₁, hc₁, hrescanned₁, haborted₁, -⟩ := checkUnit_spec options unit₁ ht
  have hneeds : c₁.context.needsRescan = c.context.needsRescan := by
    rw [Bool.eq_iff_iff, hc₁.needsRescan_iff, hc.needsRescan_iff]
    constructor
    · rintro ⟨id, kind, hsuspect⟩
      exact ⟨id, kind, hsuspect.mono hsub hsub'⟩
    · rintro ⟨id, kind, hsuspect⟩
      exact ⟨id, kind, hsuspect.mono hsub' hsub⟩
  have hflags : (checkUnit t options unit₁).flags = (checkUnit t options unit).flags := by
    rw [checkUnit_flags, checkUnit_flags, seenFlags_congr hsub hsub' t]
  have hcount : ∀ {u : ClassFile} {c : Checker}, c.Scanned t options u →
      c.context.aborted = (failedSites t u).length := by
    intro u c hc
    rw [hc.aborted, failedSites, List.length_map, List.countP_eq_length_filter]
  have hfailed : (checkUnit t options unit₁).aborted = (checkUnit t options unit).aborted := by
    have hmethods : unit.methods.Nodup := hsignatures.of_map
    rw [haborted, haborted₁, hcount hc, hcount hc₁]
    exact Nat.le_antisymm (length_failedSites_le (hperm.nodup_iff.2 hmethods) hsub)
      (length_failedSites_le hmethods hsub')
  rw [UnitReport.mk.injEq]
  exact ⟨rfl, hsort, by rw [hrescanned, hrescanned₁, hneeds], hflags, hfailed⟩

end Reported

/-- A class with two methods: one obtains a message and drops it, the other one does so with a
velocity tracker. -/
def droppedInTwoMethods : ClassFile :=
  { droppedMessage with
    methods := droppedMessage.methods ++ [{
      name := "move"
      desc := "()V"
      isStatic := true
      maxLocals := 0
      maxStack := none
      code := [.invoke ⟨.static, "android/view/VelocityTracker", "obtain",
        "()Landroid/view/VelocityTracker;"⟩, .pop, .ret]
      handlers := []
      lines := [] }] }

set_option maxRecDepth 10000 in
/-- The message is reported in whatever place its method stands. -/
theorem checkUnit_methodOrder_of_two :
    let t := ResourceTable.configured [] []
    let options : CheckOptions := ⟨false, true, .warning⟩
    let swapped : ClassFile :=
      { droppedInTwoMethods with methods := droppedInTwoMethods.methods.reverse }
    t.names.Nodup ∧ (droppedInTwoMethods.methods.map Method.signature).Nodup ∧
      checkUnit t options swapped = checkUnit t options droppedInTwoMethods ∧
        (⟨(0, 0), .leaked, ResourceTable.message⟩ : Finding).diagnostic t options
          droppedInTwoMethods ∈ (checkUnit t options swapped).diagnostics := by
  intro t options swapped
  have ht : t.names.Nodup := ResourceTable.nodup_names_configured [] []
  have hsignatures : (droppedInTwoMethods.methods.map Method.signature).Nodup := by decide
  have hswapped : checkUnit t options swapped = checkUnit t options droppedInTwoMethods :=
    checkUnit_methodOrder ht options droppedInTwoMethods hsignatures _
      (List.reverse_perm droppedInTwoMethods.methods)
  refine ⟨ht, hsignatures, hswapped, ?_⟩
  have hat : ∃ m, ObtainedAt t droppedInTwoMethods 0 0 2 ResourceTable.message m :=
    ⟨_, rfl, ⟨_, rfl, by decide⟩, by decide⟩
  have hunreleased : ¬ReleasedIn t droppedInTwoMethods 2 := by
    rw [releasedIn_iff]
    decide
  obtain ⟨m, hat⟩ := hat
  rw [hswapped]
  exact (mem_diagnostics ht).2 ⟨_, .unreleased rfl hat rfl hunreleased, rfl⟩

end PoolLint

import PoolLint.Proofs.Check.Epoch
import PoolLint.Proofs.Report.Filling
import PoolLint.Proofs.Report.Order

/-!
# The order in which classes are finished

Classes may be checked side by side, and each hands in its diagnostics as one batch when it is
finished. The order of the batches shows in the sorted list only where diagnostics from two classes
tie. A message names a kind by the last part of its owner's name, so tied diagnostics differ in
nothing but the name of the kind (`Finding.eq_of_ties`), and this only if two kinds share that last
part. Without such kinds, or if no two classes have the same name, all orders give the same list
(`checkUnits_batchOrder`); otherwise they need not (`batchOrder_shows`).
-/

namespace PoolLint

open PoolLint.Bytecode

/-! ## What a diagnostic says -/

/-- The diagnostic without the name of the kind. -/
def Diagnostic.anonymous (d : Diagnostic) : Diagnostic :=
  { d with resource := none }

/-- Diagnostics are not compared by the name of the kind. -/
theorem Diagnostic.map_anonymous_sort (ds : List Diagnostic) :
    (sort ds).map anonymous = sort (ds.map anonymous) := by
  have hties : ∀ d : Diagnostic, d.anonymous.ties d = true :=
    fun _ => ties_iff.2 ⟨rfl, rfl, rfl⟩
  exact map_sort hties ds

namespace Finding

variable {t : ResourceTable} {options : CheckOptions} {unit unit' : ClassFile} {x x' : Finding}

/-- Diagnostics that tie are about kinds of the same simple name, and agree but for the name of
the kind. -/
theorem eq_of_ties
    (h : (x.diagnostic t options unit).ties (x'.diagnostic t options unit') = true) :
    x.kind.simpleName = x'.kind.simpleName ∧
      (x.diagnostic t options unit).anonymous = (x'.diagnostic t options unit').anonymous := by
  rw [diagnostic_eq, diagnostic_eq] at h ⊢
  obtain ⟨hlocation, hcode, hmessage⟩ := Diagnostic.ties_iff.1 h
  have hsame : x.code = x'.code := FindingKind.code_injective hcode
  simp only [hsame] at hlocation hmessage ⊢
  have hname := x'.code.message_injective hmessage
  refine ⟨hname, ?_⟩
  simp only [Diagnostic.anonymous, hlocation, hname]

end Finding

/-! ## The diagnostics of one class -/

namespace Checker

variable {t : ResourceTable} {options : CheckOptions} {unit : ClassFile} {precise : Bool}
  {c c' : Checker}

/-- All diagnostics so far are about the class, and about kinds of the table. -/
structure About (t : ResourceTable) (options : CheckOptions) (unit : ClassFile) (c : Checker) :
    Prop where
  usesTable : c.table = t
  usesOptions : c.options = options
  submitted : ∀ d ∈ c.collector.submitted, ∃ x : Finding,
    x.kind ∈ t.kinds ∧ x.site.1 < unit.methods.length ∧ d = x.diagnostic t options unit

theorem About.report (h : c.About t options unit) {site : Site} (id : Nat) (finding : FindingKind)
    (hsite : site.1 < unit.methods.length) :
    (c.report unit site id finding).About t options unit := by
  unfold Checker.report
  split_ifs with hmem
  · exact h
  · cases hkind : c.table.kind? id with
    | none => exact ⟨h.usesTable, h.usesOptions, h.submitted⟩
    | some kind =>
      refine ⟨h.usesTable, h.usesOptions, ?_⟩
      intro d hd
      rcases List.mem_append.1 hd with hold | hnew
      · exact h.submitted d hold
      · rw [h.usesTable] at hkind
        refine ⟨⟨site, finding, kind⟩, List.mem_of_getElem? hkind, hsite, ?_⟩
        rw [List.mem_singleton.1 hnew]
        exact Finding.checker_diagnostic h.usesOptions t unit ⟨site, finding, kind⟩

theorem Deed.about (h : Deed unit precise c c') (hc : c.About t options unit) :
    c'.About t options unit := by
  cases h with
  | reported site id finding hid hsite => exact hc.report id finding hsite
  | released | obtained | handled | settled | aborted =>
    exact ⟨hc.usesTable, hc.usesOptions, hc.submitted⟩

theorem Deeds.about (h : Deeds unit precise c c') (hc : c.About t options unit) :
    c'.About t options unit := by
  induction h with
  | refl => exact hc
  | tail _ hdeed ih => exact hdeed.about ih

theorem About.scan (h : c.About t options unit) : (c.scan unit).About t options unit :=
  (scan_deeds c unit).about h

theorem About.afterUnit (h : c.About t options unit) : c.afterUnit.1.About t options unit := by
  obtain ⟨htable, hoptions⟩ := serve_uses c .afterUnit
  refine ⟨htable.trans h.usesTable, hoptions.trans h.usesOptions, ?_⟩
  rw [afterUnit_collector]
  exact h.submitted

theorem About.beginRescan (h : c.About t options unit) : c.beginRescan.1.About t options unit := by
  unfold Checker.beginRescan
  split_ifs
  · exact ⟨h.usesTable, h.usesOptions, h.submitted⟩
  · exact h

end Checker

section Diagnostics

variable {t : ResourceTable} {options : CheckOptions} {unit unit' : ClassFile} {d d' : Diagnostic}

theorem mem_checkUnit (hd : d ∈ (checkUnit t options unit).diagnostics) : ∃ x : Finding,
    x.kind ∈ t.kinds ∧ x.site.1 < unit.methods.length ∧ d = x.diagnostic t options unit := by
  have hstart : (Checker.new t options).beforeUnit.About t options unit := ⟨rfl, rfl, nofun⟩
  have hfirst := hstart.scan.afterUnit
  have hends : ∃ c : Checker, c.About t options unit ∧
      (checkUnit t options unit).diagnostics = c.finish := by
    unfold checkUnit
    simp only
    split_ifs with _ _ hnone
    · exact ⟨_, hfirst.beginRescan.scan.afterUnit, rfl⟩
    · exact ⟨_, hfirst.beginRescan, rfl⟩
    · exact hnone.elim
    · exact ⟨_, hfirst, rfl⟩
  obtain ⟨c, hc, hfinish⟩ := hends
  rw [hfinish] at hd
  exact hc.submitted d ((Diagnostic.sort_perm _).mem_iff.1 hd)

/-- The diagnostic is placed in the class. -/
theorem className_of_mem (hd : d ∈ (checkUnit t options unit).diagnostics) :
    d.location.map (·.className) = some unit.name := by
  obtain ⟨x, -, hsite, rfl⟩ := mem_checkUnit hd
  rw [Finding.diagnostic_eq, List.getElem?_eq_getElem hsite]
  rfl

/-- What ties agrees but for the name of the kind. -/
theorem anonymous_eq_of_ties (hd : d ∈ (checkUnit t options unit).diagnostics)
    (hd' : d' ∈ (checkUnit t options unit').diagnostics) (h : d.ties d' = true) :
    d.anonymous = d'.anonymous := by
  obtain ⟨x, -, -, rfl⟩ := mem_checkUnit hd
  obtain ⟨x', -, -, rfl⟩ := mem_checkUnit hd'
  exact (Finding.eq_of_ties h).2

theorem commuting_of_names (h : unit.name ≠ unit'.name) :
    Collector.Commuting (checkUnit t options unit).diagnostics
      (checkUnit t options unit').diagnostics := by
  refine Collector.commuting_of_ties ?_
  intro d hd d' hd' hties
  have hname := className_of_mem hd
  rw [(Diagnostic.ties_iff.1 hties).1, className_of_mem hd'] at hname
  exact absurd (Option.some.inj hname).symm h

theorem commuting_of_simpleNames (unit unit' : ClassFile)
    (h : ∀ kind ∈ t.kinds, ∀ kind' ∈ t.kinds,
      kind.simpleName = kind'.simpleName → kind.name = kind'.name) :
    Collector.Commuting (checkUnit t options unit).diagnostics
      (checkUnit t options unit').diagnostics := by
  refine Collector.commuting_of_ties ?_
  intro d hd d' hd' hties
  have hsame := anonymous_eq_of_ties hd hd' hties
  obtain ⟨x, hx, -, rfl⟩ := mem_checkUnit hd
  obtain ⟨x', hx', -, rfl⟩ := mem_checkUnit hd'
  have hname : x.kind.name = x'.kind.name := h _ hx _ hx' (Finding.eq_of_ties hties).1
  rw [Finding.diagnostic_eq, Finding.diagnostic_eq] at hsame ⊢
  simp only [Diagnostic.anonymous, Diagnostic.mk.injEq] at hsame ⊢
  simp only [hsame, hname, and_self]

end Diagnostics

/-! ## All classes -/

section Batches

variable {t : ResourceTable} {options : CheckOptions} {units : List ClassFile}
  {bs : List (List Diagnostic)}

/-- The batches that classes hand in. -/
def batches (t : ResourceTable) (options : CheckOptions) (units : List ClassFile) :
    List (List Diagnostic) :=
  (checkEach t options units).map (·.diagnostics)

theorem checkUnits_eq_sorted (t : ResourceTable) (options : CheckOptions)
    (units : List ClassFile) :
    checkUnits t options units = (Collector.ofBatches (batches t options units)).sorted := by
  unfold checkUnits Collector.ofBatches batches
  rw [List.foldl_map]

theorem mem_batches {batch : List Diagnostic} :
    batch ∈ batches t options units ↔
      ∃ unit ∈ units, (checkUnit t options unit).diagnostics = batch := by
  unfold batches checkEach
  rw [List.map_map, List.mem_map]
  rfl

theorem pairwise_batches {R : ClassFile → ClassFile → Prop} (h : units.Pairwise R)
    (hR : ∀ unit unit', R unit unit' → Collector.Commuting (checkUnit t options unit).diagnostics
      (checkUnit t options unit').diagnostics) :
    (batches t options units).Pairwise Collector.Commuting := by
  unfold batches checkEach
  rw [List.map_map, List.pairwise_map]
  exact h.imp (hR _ _)

theorem map_anonymous_sorted (hbs : bs.Perm (batches t options units)) :
    (Collector.ofBatches bs).sorted.map Diagnostic.anonymous =
      (checkUnits t options units).map Diagnostic.anonymous := by
  have hmem : ∀ d ∈ (batches t options units).flatten,
      ∃ unit, d ∈ (checkUnit t options unit).diagnostics := by
    intro d hd
    obtain ⟨batch, hbatch, hd⟩ := List.mem_flatten.1 hd
    obtain ⟨unit, -, rfl⟩ := mem_batches.1 hbatch
    exact ⟨unit, hd⟩
  rw [checkUnits_eq_sorted, Collector.sorted_ofBatches, Collector.sorted_ofBatches,
    Diagnostic.map_anonymous_sort, Diagnostic.map_anonymous_sort]
  refine (Diagnostic.sort_eq_of_perm ?_ (hbs.flatten.map _).symm).symm
  intro _ hleft _ hright hties
  obtain ⟨d, hd, rfl⟩ := List.mem_map.1 hleft
  obtain ⟨d', hd', rfl⟩ := List.mem_map.1 hright
  obtain ⟨unit, hd⟩ := hmem d hd
  obtain ⟨unit', hd'⟩ := hmem d' hd'
  exact anonymous_eq_of_ties hd hd' hties

/-- Whatever the order in which classes are finished, the list of their diagnostics is the same but
for the names of kinds. It is the same in every respect exactly if any two batches commute. They do
if no two classes have the same name, and if no two kinds of the table share the last part of their
owners' names. -/
theorem checkUnits_batchOrder (t : ResourceTable) (options : CheckOptions)
    (units : List ClassFile) :
    (∀ bs : List (List Diagnostic), bs.Perm (batches t options units) →
      (Collector.ofBatches bs).sorted.map Diagnostic.anonymous =
        (checkUnits t options units).map Diagnostic.anonymous) ∧
    ((∀ bs : List (List Diagnostic), bs.Perm (batches t options units) →
      (Collector.ofBatches bs).sorted = checkUnits t options units) ↔
        (batches t options units).Pairwise Collector.Commuting) ∧
    ((units.map (·.name)).Nodup → (batches t options units).Pairwise Collector.Commuting) ∧
    ((∀ kind ∈ t.kinds, ∀ kind' ∈ t.kinds,
      kind.simpleName = kind'.simpleName → kind.name = kind'.name) →
        (batches t options units).Pairwise Collector.Commuting) := by
  refine ⟨fun bs hbs => map_anonymous_sorted hbs, ?_, ?_, ?_⟩
  · rw [checkUnits_eq_sorted]
    exact Collector.sorted_ofBatches_iff _
  · intro hnames
    rw [List.nodup_iff_pairwise_ne, List.pairwise_map] at hnames
    exact pairwise_batches hnames fun _ _ => commuting_of_names
  · intro hsimple
    have hall : units.Pairwise fun _ _ => True := List.pairwise_of_forall fun _ _ => trivial
    exact pairwise_batches hall fun unit unit' _ => commuting_of_simpleNames unit unit' hsimple

/-- The built-in kinds have different simple names. -/
example : ∀ kind ∈ ResourceTable.builtin.kinds, ∀ kind' ∈ ResourceTable.builtin.kinds,
    kind.simpleName = kind'.simpleName → kind.name = kind'.name := by
  decide

end Batches

/-! ## An order that shows -/

/-- A kind whose owner's name ends like that of the messages in the built-in table. -/
def chatMessage : ResourceKind :=
  ResourceTable.recycled "ChatMessage" "chat/Message" [⟨"chat/Message", "obtain", none⟩] false

/-- Another class of the same name, which drops a chat message in the same place. -/
def droppedChatMessage : ClassFile :=
  { droppedMessage with
    methods := [{
      name := "send"
      desc := "()V"
      isStatic := true
      maxLocals := 0
      maxStack := none
      code := [.invoke ⟨.static, "chat/Message", "obtain", "()Lchat/Message;"⟩, .pop, .ret]
      handlers := []
      lines := [] }] }

set_option maxRecDepth 10000 in
/-- Each of the two classes hands in one diagnostic. -/
theorem batches_dropped :
    let t := ResourceTable.configured [] [chatMessage]
    let options : CheckOptions := ⟨false, true, .warning⟩
    let chat : Finding := ⟨(0, 0), .leaked, chatMessage⟩
    let plain : Finding := ⟨(0, 0), .leaked, ResourceTable.message⟩
    batches t options [droppedChatMessage, droppedMessage] =
      [Diagnostic.sort [chat.diagnostic t options droppedChatMessage],
        Diagnostic.sort [plain.diagnostic t options droppedMessage]] := by
  rfl

/-- Both diagnostics say that a `Message` is not recycled, in the same place, and so they come out
in the order in which the classes are finished; but they are about different kinds. -/
theorem batchOrder_shows :
    let t := ResourceTable.configured [] [chatMessage]
    let options : CheckOptions := ⟨false, true, .warning⟩
    let units := [droppedChatMessage, droppedMessage]
    (Collector.ofBatches (batches t options units).reverse).sorted ≠
      checkUnits t options units := by
  intro t options units h
  let chat : Diagnostic :=
    (⟨(0, 0), .leaked, chatMessage⟩ : Finding).diagnostic t options droppedChatMessage
  let plain : Diagnostic :=
    (⟨(0, 0), .leaked, ResourceTable.message⟩ : Finding).diagnostic t options droppedMessage
  have hbatches : batches t options units = [[chat], [plain]] := by
    rw [batches_dropped, Diagnostic.sort, Diagnostic.sort, List.mergeSort_singleton,
      List.mergeSort_singleton]
  rw [checkUnits_eq_sorted, hbatches, Collector.sorted_ofBatches, Collector.sorted_ofBatches] at h
  have hsorted : Diagnostic.sort [plain, chat] = Diagnostic.sort [chat, plain] := h
  have hties : chat.ties plain = true := by
    have hname : chatMessage.simpleName = ResourceTable.message.simpleName := by decide
    simp only [chat, plain, Finding.diagnostic_eq]
    exact Diagnostic.ties_iff.2 ⟨rfl, rfl, congrArg (FindingKind.message .leaked) hname⟩
  have horder := (Diagnostic.sort_eq_iff (List.Perm.swap chat plain [])).1 hsorted chat
  simp only [List.filter_cons, hties, Diagnostic.ties_self, if_true] at horder
  have hresource : plain.resource = chat.resource :=
    congrArg Diagnostic.resource (List.cons.inj horder).1
  simp only [chat, plain, Finding.diagnostic_eq] at hresource
  exact absurd hresource (by decide)

end PoolLint

import PoolLint.Command.Run
import PoolLint.Proofs.Check.Disabling
import PoolLint.Proofs.Resource.Overriding

/-!
# Settings from layers

A check is made under the defaults, overlaid by any number of layers and then by what the command
line asks for. Of most fields the last value counts that a layer sets, while the extra kinds of all
layers add up (`LintSettings.apply`), and both meet in the table of kinds: an extra kind takes the
place of an earlier one, and the names that the last layer disables are taken out, whichever layer
the kind is from. `layered_resolved` says what comes out of all this, field by field, and for the
table kind by kind.
-/

namespace PoolLint

open PoolLint.Bytecode PoolLint.Command

/-- The settings of a check: the layers in order, and the command line over them. -/
def layered (layers : List LintLayer) (args : CheckArguments) : LintSettings :=
  args.override (layers.foldl LintSettings.apply .default)

/-- The last value that a layer sets. -/
def lastSet? {α : Type} (field : LintLayer → Option α) (layers : List LintLayer) : Option α :=
  (layers.filterMap field).getLast?

/-- The extra kinds of all layers, in order. -/
def addedKinds (layers : List LintLayer) : List ResourceKind :=
  layers.flatMap (·.extraKinds)

/-- What layers and the command line come to. -/
structure LintSettings.Resolved (s : LintSettings) (layers : List LintLayer)
    (args : CheckArguments) : Prop where
  enabled : s.enabled = (lastSet? (·.enabled) layers).getD true
  disabledKinds : s.disabledKinds = (lastSet? (·.disabledKinds) layers).getD []
  severity : s.severity = args.severity.getD ((lastSet? (·.severity) layers).getD .warning)
  parallel : s.parallel =
    if args.sequential then false else (lastSet? (·.parallel) layers).getD true
  rescan : s.rescan = if args.noRescan then false else (lastSet? (·.rescan) layers).getD true
  /-- The built-in names come first, then the others as they first occur. -/
  names : s.resourceTable.names =
    (ResourceTable.builtin.names ++ ResourceTable.newNames ResourceTable.builtin.names
      ((addedKinds layers).map (·.name))).filter fun name => !s.disabledKinds.contains name
  mem_names : ∀ name, name ∈ s.resourceTable.names ↔
    (name ∈ ResourceTable.builtin.names ∨
      ∃ layer ∈ layers, ∃ kind ∈ layer.extraKinds, kind.name = name) ∧ name ∉ s.disabledKinds
  distinct : s.resourceTable.names.Nodup
  /-- Every name stands for the last extra kind of that name, or else for the built-in one. -/
  kinds : s.resourceTable.kinds = s.resourceTable.names.filterMap fun name =>
    (ResourceTable.lastNamed? (addedKinds layers) name).or
      (ResourceTable.lastNamed? ResourceTable.builtin.kinds name)
  /-- All that is reported is about kinds that are not disabled. -/
  reported : ∀ unit, ∀ d ∈ s.checkUnit unit,
    ∃ name ∈ s.resourceTable.names, name ∉ s.disabledKinds ∧ d.resource = some name

/-! ## Layers -/

/-- Of a field that layers replace the last value counts. -/
theorem foldl_apply_getD {α : Type} (read : LintSettings → α) (field : LintLayer → Option α)
    (happly : ∀ s layer, read (s.apply layer) = (field layer).getD (read s))
    (layers : List LintLayer) (s : LintSettings) :
    read (layers.foldl LintSettings.apply s) = (lastSet? field layers).getD (read s) := by
  induction layers generalizing s with
  | nil => rfl
  | cons layer layers ih =>
    rw [List.foldl_cons, ih, happly]
    unfold lastSet?
    cases hset : field layer with
    | none => rw [List.filterMap_cons_none hset, Option.getD_none]
    | some value =>
      rw [List.filterMap_cons_some hset, List.getLast?_cons, Option.getD_some, Option.getD_some]

/-- The extra kinds add up. -/
theorem foldl_apply_extraKinds (layers : List LintLayer) (s : LintSettings) :
    (layers.foldl LintSettings.apply s).extraKinds = s.extraKinds ++ addedKinds layers := by
  induction layers generalizing s with
  | nil => exact (List.append_nil _).symm
  | cons layer layers ih =>
    rw [List.foldl_cons, ih]
    exact List.append_assoc _ _ _

theorem exists_addedKinds {layers : List LintLayer} {P : ResourceKind → Prop} :
    (∃ kind ∈ addedKinds layers, P kind) ↔ ∃ layer ∈ layers, ∃ kind ∈ layer.extraKinds, P kind := by
  constructor
  · rintro ⟨kind, hmem, hkind⟩
    obtain ⟨layer, hlayer, hmem⟩ := List.mem_flatMap.1 hmem
    exact ⟨layer, hlayer, kind, hmem, hkind⟩
  · rintro ⟨layer, hlayer, kind, hmem, hkind⟩
    exact ⟨kind, List.mem_flatMap.2 ⟨layer, hlayer, hmem⟩, hkind⟩

/-! ## The table -/

namespace LintSettings

theorem mem_names_resourceTable {s : LintSettings} {name : String} :
    name ∈ s.resourceTable.names ↔ (name ∈ ResourceTable.builtin.names ∨
      ∃ kind ∈ s.extraKinds, kind.name = name) ∧ name ∉ s.disabledKinds := by
  unfold resourceTable
  rw [ResourceTable.names_configured, List.mem_filter, List.mem_append,
    ResourceTable.mem_newNames, List.mem_map, Bool.not_eq_true', ← Bool.not_eq_true,
    List.contains_iff_mem]
  refine and_congr_left fun _ => ?_
  tauto

/-- Everything that is reported about a class is about a kind of the table. -/
theorem exists_name_of_mem_checkUnit {s : LintSettings} {unit : ClassFile} {d : Diagnostic}
    (hd : d ∈ s.checkUnit unit) : ∃ name ∈ s.resourceTable.names, d.resource = some name := by
  unfold checkUnit at hd
  split_ifs at hd with henabled
  · obtain ⟨x, hkind, -, rfl⟩ := mem_checkUnit hd
    refine ⟨x.kind.name, List.mem_map_of_mem hkind, ?_⟩
    rw [Finding.diagnostic_eq]
  · cases hd

end LintSettings

/-- Whatever layers are applied to the defaults, and whatever the command line asks for: every field
has the last value that is set, or else the default; and the table has one kind for each name that
is built in or added by some layer and is not disabled in the end, built-in names first and the
others as they first occur, each defined by the last extra kind of the name, or else as it is built
in. Nothing is reported about a kind that is disabled. -/
theorem layered_resolved (layers : List LintLayer) (args : CheckArguments) :
    (layered layers args).Resolved layers args := by
  have hfields {α : Type} := @foldl_apply_getD α
  have hextra : (layered layers args).extraKinds = addedKinds layers :=
    foldl_apply_extraKinds layers .default
  -- a switch on the command line can only turn something off
  have hswitch : ∀ set off : Bool, (set && !off) = if off then false else set := by decide
  constructor
  case enabled => exact hfields (·.enabled) (·.enabled) (fun _ _ => rfl) layers .default
  case disabledKinds =>
    exact hfields (·.disabledKinds) (·.disabledKinds) (fun _ _ => rfl) layers .default
  case severity =>
    have hlayers := hfields (·.severity) (·.severity) (fun _ _ => rfl) layers .default
    exact congrArg args.severity.getD hlayers
  case parallel =>
    have hlayers := hfields (·.parallel) (·.parallel) (fun _ _ => rfl) layers .default
    refine (hswitch _ args.sequential).trans ?_
    rw [hlayers]
    rfl
  case rescan =>
    have hlayers := hfields (·.rescan) (·.rescan) (fun _ _ => rfl) layers .default
    refine (hswitch _ args.noRescan).trans ?_
    rw [hlayers]
    rfl
  case names =>
    rw [← hextra]
    exact ResourceTable.names_configured _ _
  case mem_names =>
    intro name
    rw [LintSettings.mem_names_resourceTable, hextra, exists_addedKinds]
  case distinct => exact ResourceTable.nodup_names_configured _ _
  case kinds =>
    rw [← hextra]
    simp only [← ResourceTable.lastNamed?_append]
    exact ResourceTable.kinds_configured _ _
  case reported =>
    intro unit d hd
    obtain ⟨name, hname, hresource⟩ := LintSettings.exists_name_of_mem_checkUnit hd
    exact ⟨name, hname, (LintSettings.mem_names_resourceTable.1 hname).2, hresource⟩

/-! ### Settings of a user and of a project -/

/-- The user adds a kind, and disables another one. -/
def userLayer : LintLayer :=
  { LintLayer.empty with
    disabledKinds := some ["Message"]
    severity := some .error
    extraKinds := [note] }

/-- The project disables a kind in place of that of the user, and defines the user's anew. -/
def projectLayer : LintLayer :=
  { LintLayer.empty with
    disabledKinds := some ["Parcel"]
    parallel := some true
    extraKinds := [{ note with flowChecked := true }] }

/-- `check --sequential` -/
def sequentialCheck : CheckArguments :=
  ⟨[], none, none, false, true, false, none⟩

set_option maxRecDepth 10000 in
/-- Messages are enabled again, so that a dropped one is reported. -/
theorem layered_resolved_of_project :
    let s := layered [userLayer, projectLayer] sequentialCheck
    s.parallel = false ∧ s.severity = .error ∧
      s.resourceTable.names = ["TypedArray", "VelocityTracker", "Message", "MotionEvent", "Note"] ∧
      { note with flowChecked := true } ∈ s.resourceTable.kinds ∧
      ∃ d ∈ s.checkUnit droppedMessage, d.resource = some "Message" ∧
        ∃ name ∈ s.resourceTable.names, name ∉ s.disabledKinds ∧ d.resource = some name := by
  intro s
  have h : s.Resolved _ _ := layered_resolved [userLayer, projectLayer] sequentialCheck
  have hat : ∃ m, ObtainedAt s.resourceTable droppedMessage 0 0 2 ResourceTable.message m :=
    ⟨_, rfl, ⟨_, rfl, by decide⟩, by decide⟩
  have hunreleased : ¬ReleasedIn s.resourceTable droppedMessage 2 := by
    rw [releasedIn_iff]
    decide
  obtain ⟨m, hat⟩ := hat
  have hd := LintSettings.mem_checkUnit_of_unreleased rfl rfl hat rfl hunreleased
  refine ⟨h.parallel, h.severity, h.names.trans (by decide), ?_, _, hd, ?_, h.reported _ _ hd⟩
  · rw [h.kinds]
    decide
  · rw [Finding.diagnostic_eq]
    rfl

end PoolLint

import Mathlib.Data.List.Find
import PoolLint.Proofs.Files.Places
import PoolLint.Settings.Source

/-!
# Searching for the settings of a project

The search goes up the path as it is spelled. In a tree without links it finds the settings file in
the last directory that the path passes through and that has one (`findProjectSettings?_exact`).
These are all the ancestors of a directory only if the path is absolute and goes nowhere back: a
relative path never leads above the working directory, and the parent of a directory is reached
from inside of it.
-/

namespace PoolLint.FileSystem

variable {fs : FileSystem} {path start : String} {place dir names : List String}
variable {cs : List Component}

/-- A directory has a settings file in it. -/
def holdsSettings (fs : FileSystem) (dir : List String) : Bool :=
  match fs.root.at? (dir ++ [projectFileName]) with
  | some (.file _) => true
  | _ => false

/-- The directory of a file, and a directory itself. -/
def directoryOf (fs : FileSystem) (place : List String) : List String :=
  if fs.isDirAt place then place else place.dropLast

/-- A directory and its ancestors, the nearest first. -/
def ancestry (dir : List String) : List (List String) :=
  dir.inits.reverse

/-- The directories that components lead through, the last first. -/
def passes (fs : FileSystem) (cs : List Component) : List (List String) :=
  (Path.lineage cs).map fun beginning => beginning.foldl Component.move fs.workingDir

/-- The components of a path without the name of a file. -/
def directoryComponents (fs : FileSystem) (path : String) : List Component :=
  if fs.isFile path then (Path.components path).dropLast else Path.components path

theorem isName_projectFileName : Path.IsName projectFileName := by
  decide

theorem holdsSettings_iff : fs.holdsSettings dir = true ↔
    ∃ text, fs.root.at? (dir ++ [projectFileName]) = some (.file text) := by
  unfold holdsSettings
  split
  · rename_i text h
    exact ⟨fun _ => ⟨text, h⟩, fun _ => rfl⟩
  · rename_i h
    exact ⟨fun h' => by simp at h', fun ⟨text, hfile⟩ => absurd hfile (h text)⟩

/-! ## Directories on the way -/

/-- Going down by names passes the places in between. -/
theorem map_inits_names (place names : List String) :
    ((names.map Component.name).inits.reverse.map fun cs => cs.foldl Component.move place) =
      names.inits.reverse.map (place ++ ·) := by
  rw [List.map_inits, List.map_reverse, List.map_reverse, List.map_map]
  congr 2
  funext front
  exact foldl_move_names place front

theorem passes_absolute : fs.passes (.root :: names.map Component.name) = ancestry names := by
  unfold passes Path.lineage ancestry
  rw [List.map_map]
  exact (map_inits_names [] names).trans (by simp)

theorem passes_relative :
    fs.passes (names.map Component.name) = names.inits.reverse.map (fs.workingDir ++ ·) := by
  have hhead : (names.map Component.name).head? ≠ some .root := by
    cases names <;> simp
  unfold passes
  rw [Path.lineage_of_head?_ne hhead, map_inits_names]

/-- A dot at the start leads through the working directory twice. -/
theorem passes_current : fs.passes (.current :: names.map Component.name) =
    names.inits.reverse.map (fs.workingDir ++ ·) ++ [fs.workingDir] := by
  unfold passes
  rw [Path.lineage_of_head?_ne (by simp), List.inits_cons, List.reverse_cons, List.map_append,
    ← List.map_reverse, List.map_map, ← map_inits_names]
  rfl

theorem ancestry_concat (dir : List String) (name : String) :
    ancestry (dir ++ [name]) = (dir ++ [name]) :: ancestry dir := by
  simp [ancestry, List.inits_append]

theorem find?_ancestry_self {p : List String → Bool} (h : p dir = true) :
    (ancestry dir).find? p = some dir := by
  cases dir using List.reverseRecOn with
  | nil => simp [ancestry, h]
  | append_singleton front name => rw [ancestry_concat, List.find?_cons_of_pos h]

/-- The nearest directory that satisfies a condition, among the ancestors down from another one, is
the nearest one of all ancestors if that is not further up. -/
theorem find?_map_append (top names : List String) (p : List String → Bool) :
    (names.inits.reverse.map (top ++ ·)).find? p =
      ((ancestry (top ++ names)).find? p).filter top.isPrefixOf := by
  induction names using List.reverseRecOn with
  | nil =>
    have hone : ([] : List String).inits.reverse.map (top ++ ·) = [top] := by simp
    rw [hone, List.append_nil]
    by_cases htop : p top = true
    · rw [find?_ancestry_self htop, List.find?_cons_of_pos htop, Option.filter_some,
        if_pos (List.isPrefixOf_iff_prefix.2 List.prefix_rfl)]
    · rw [List.find?_cons_of_neg htop, List.find?_nil, eq_comm, Option.filter_eq_none_iff]
      intro dir hdir hbegins
      have hbelow : dir <+: top := by
        have hmem := List.mem_of_find?_eq_some hdir
        rwa [ancestry, List.mem_reverse, List.mem_inits] at hmem
      have hsame := hbelow.eq_of_length_le (List.isPrefixOf_iff_prefix.1 hbegins).length_le
      exact htop (hsame ▸ List.find?_some hdir)
  | append_singleton names name ih =>
    have hfront := ancestry_concat names name
    unfold ancestry at hfront
    rw [hfront, List.map_cons, ← List.append_assoc, ancestry_concat]
    by_cases hself : p (top ++ names ++ [name]) = true
    · have hbegins : top.isPrefixOf (top ++ names ++ [name]) = true := by
        rw [List.isPrefixOf_iff_prefix, List.append_assoc]
        exact List.prefix_append _ _
      rw [List.find?_cons_of_pos hself, List.find?_cons_of_pos hself, Option.filter_some,
        if_pos hbegins]
    · rw [List.find?_cons_of_neg hself, List.find?_cons_of_neg hself]
      exact ih

/-! ## The search -/

/-- What is known of the path that a search starts from: it has the components of the path that was
given without the name of a file, and leads to the directory of the place. -/
structure StartsAt (fs : FileSystem) (path : String) (place : List String) (start : String) :
    Prop where
  components : Path.components start = fs.directoryComponents path
  leads : fs.descend? fs.workingDir (Path.components start) = some (fs.directoryOf place)
  isDirAt : fs.isDirAt (fs.directoryOf place)
  parents : .parent ∈ Path.components start → .parent ∈ Path.components path
  absolute : start.startsWith "/" ↔ path.startsWith "/"

theorem not_isFile_of_isDirAt (h : fs.resolve? path = some place) (hdir : fs.isDirAt place) :
    ¬fs.isFile path := by
  obtain ⟨entries, hentries⟩ := isDirAt_iff.1 hdir
  rw [isFile, node?, h, Option.bind_some, hentries]
  simp

namespace Plain

variable (hplain : fs.Plain)
include hplain

/-- The settings file at an ancestor of a path is looked up in the directory that the ancestor
leads to. -/
theorem resolve?_join_ancestor (hdir : fs.isDirAt dir)
    (h : fs.descend? fs.workingDir (Path.components start) = some dir) {above : String}
    (habove : above ∈ Path.ancestors start) :
    fs.resolve? (Path.join above projectFileName) =
      (fs.root.at? (fs.placeOf above ++ [projectFileName])).map
        fun _ => fs.placeOf above ++ [projectFileName] := by
  have hlineage : Path.components above ∈ Path.lineage (Path.components start) := by
    rw [← Path.components_ancestors]
    exact List.mem_map_of_mem habove
  obtain ⟨more, hmore⟩ := Path.prefix_of_mem_lineage hlineage
  rw [← hmore, descend?_append] at h
  obtain ⟨q, hq, hbelow⟩ := Option.bind_eq_some_iff.1 h
  rw [placeOf, ← foldl_of_descend? hq]
  apply hplain.resolve?_join isName_projectFileName
  by_cases hempty : above = ""
  · left
    rw [hempty] at hq
    exact ⟨hempty, (Option.some.inj hq).symm⟩
  · exact Or.inr (hplain.resolve?_of_descend? hempty hq (isDirAt_of_descend? hbelow hdir))

/-- Of the ancestors of a path to a directory, the first one counts that leads to a directory with
a settings file. -/
theorem find?_ancestors (hdir : fs.isDirAt dir)
    (h : fs.descend? fs.workingDir (Path.components start) = some dir) :
    (((Path.ancestors start).map (Path.join · projectFileName)).find? fs.isFile).map fs.resolve? =
      ((fs.passes (Path.components start)).find? fs.holdsSettings).map
        fun dir => some (dir ++ [projectFileName]) := by
  have hpasses : fs.passes (Path.components start) = (Path.ancestors start).map fs.placeOf := by
    unfold passes
    rw [← Path.components_ancestors, List.map_map]
    rfl
  have hresolve : ∀ above ∈ Path.ancestors start,
      fs.resolve? (Path.join above projectFileName) =
        (fs.root.at? (fs.placeOf above ++ [projectFileName])).map
          fun _ => fs.placeOf above ++ [projectFileName] :=
    fun above habove => hplain.resolve?_join_ancestor hdir h habove
  have hholds : ∀ above ∈ Path.ancestors start,
      (fs.isFile ∘ (Path.join · projectFileName)) above =
        (fs.holdsSettings ∘ fs.placeOf) above := by
    intro above habove
    show fs.isFile (Path.join above projectFileName) = fs.holdsSettings (fs.placeOf above)
    unfold isFile node? holdsSettings
    rw [hresolve above habove]
    cases hnode : fs.root.at? (fs.placeOf above ++ [projectFileName]) with
    | none => rfl
    | some node => cases node <;> simp [hnode]
  rw [hpasses, List.find?_map, List.find?_map, List.find?_congr hholds, Option.map_map,
    Option.map_map]
  apply Option.map_congr
  intro above habove
  have hhere := List.find?_some habove
  rw [Function.comp_apply, holdsSettings_iff] at hhere
  obtain ⟨text, htext⟩ := hhere
  show fs.resolve? (Path.join above projectFileName) = _
  rw [hresolve above (List.mem_of_find?_eq_some habove), htext]
  rfl

/-- The search starts at the directory of a file, and at a directory itself. -/
theorem exists_start (h : fs.resolve? path = some place) :
    ∃ start, (if fs.isFile path then Path.parent? path else some path) = some start ∧
      fs.StartsAt path place start := by
  have hwalk := hplain.descend?_of_resolve? h
  obtain ⟨node, hnode⟩ := Option.isSome_iff_exists.1 (hplain.isSome_of_resolve? h)
  cases node with
  | file text =>
    have hfile : fs.isFile path = true := by
      rw [isFile, node?, h, Option.bind_some, hnode]
    obtain ⟨cs, dir, name, hcomponents, hcs, hplace⟩ := hplain.components_of_file h hnode
    have hdir : fs.directoryOf place = dir := by
      have hnot : ¬fs.isDirAt place := by
        rw [isDirAt_iff, hnode]
        simp
      rw [directoryOf, if_neg hnot, hplace, List.dropLast_concat]
    rw [if_pos hfile]
    rcases Path.parent?_cases path with ⟨-, htop⟩ | ⟨above, last, habove, hlast, -⟩
    · -- neither the root nor the empty path leads to a file
      rw [hcomponents] at htop
      cases cs <;> simp at htop
    · have hsame : Path.components above = cs :=
        List.append_inj_left' (hlast.symm.trans hcomponents) rfl
      refine ⟨above, habove, ?_, ?_, ?_, ?_, ?_⟩
      · rw [directoryComponents, if_pos hfile, hcomponents, hsame, List.dropLast_concat]
      · rw [hsame, hcs, hdir]
      · rw [hplace] at hnode
        rw [hdir]
        exact isDirAt_of_concat (Option.isSome_of_eq_some hnode)
      · intro hparent
        rw [hcomponents, ← hsame]
        exact List.mem_append_left _ hparent
      · rw [Path.startsWith_iff_head?, Path.startsWith_iff_head?, hcomponents, hsame]
        cases cs <;> simp
  | dir entries =>
    have hisdir : fs.isDirAt place := isDirAt_iff.2 ⟨entries, hnode⟩
    have hfile := not_isFile_of_isDirAt h hisdir
    have hdir : fs.directoryOf place = place := if_pos hisdir
    rw [if_neg hfile]
    refine ⟨path, rfl, (if_neg hfile).symm, ?_, ?_, id, Iff.rfl⟩
    · rw [hdir, hwalk]
    · rw [hdir, hisdir]
  | link target => exact absurd hnode (hplain.not_link target)

/-- The last directory counts that the path to its directory passes through and that has a settings
file. -/
theorem map_findProjectSettings? (h : fs.resolve? path = some place) :
    (fs.findProjectSettings? path).map fs.resolve? =
      ((fs.passes (fs.directoryComponents path)).find? fs.holdsSettings).map
        fun dir => some (dir ++ [projectFileName]) := by
  obtain ⟨start, hstart, hat⟩ := hplain.exists_start h
  have hsearch : fs.findProjectSettings? path =
      (if fs.isFile path then Path.parent? path else some path).bind fun start =>
        ((Path.ancestors start).map (Path.join · projectFileName)).find? fs.isFile := by
    unfold findProjectSettings?
    split <;> rfl
  rw [← hat.components, ← hplain.find?_ancestors hat.isDirAt hat.leads, hsearch, hstart]
  rfl

/-- An absolute path without parents passes through all ancestors of its directory. -/
theorem passes_of_absolute (h : fs.resolve? path = some place)
    (hparent : .parent ∉ Path.components path) (habsolute : path.startsWith "/") :
    fs.passes (fs.directoryComponents path) = ancestry (fs.directoryOf place) := by
  obtain ⟨start, -, hat⟩ := hplain.exists_start h
  obtain ⟨names, hnames⟩ :=
    Path.components_of_absolute (hat.absolute.2 habsolute) (mt hat.parents hparent)
  have hplace : fs.directoryOf place = names := by
    rw [foldl_of_descend? hat.leads, hnames]
    exact foldl_move_names [] names
  rw [← hat.components, hplace, hnames, passes_absolute]

/-- A relative path without parents passes through the ancestors of its directory that are not above
the working directory. -/
theorem find?_passes_of_relative (h : fs.resolve? path = some place)
    (hparent : .parent ∉ Path.components path) (hrelative : ¬path.startsWith "/")
    (p : List String → Bool) :
    (fs.passes (fs.directoryComponents path)).find? p =
      ((ancestry (fs.directoryOf place)).find? p).filter fs.workingDir.isPrefixOf := by
  obtain ⟨start, -, hat⟩ := hplain.exists_start h
  obtain ⟨names, hnames⟩ :=
    Path.components_of_relative (mt hat.absolute.1 hrelative) (mt hat.parents hparent)
  have hplace : fs.directoryOf place = fs.workingDir ++ names := by
    rw [foldl_of_descend? hat.leads]
    rcases hnames with hnames | hnames
    · rw [hnames, foldl_move_names]
    · rw [hnames]
      exact foldl_move_names fs.workingDir names
  rw [← hat.components, hplace, ← find?_map_append]
  rcases hnames with hnames | hnames
  · rw [hnames, passes_relative]
  · -- the working directory is looked at once more in the end, in vain
    rw [hnames, passes_current, List.find?_append]
    cases hfound : (names.inits.reverse.map (fs.workingDir ++ ·)).find? p with
    | some dir => rfl
    | none =>
      have hnot : ¬p fs.workingDir := by
        apply List.find?_eq_none.1 hfound
        simp
      rw [Option.none_or, List.find?_cons_of_neg hnot, List.find?_nil]

end Plain

/-- In a tree without links the search from a path that leads somewhere finds the settings file in
the last directory with one that the path to its directory passes through, and nothing if there is
none. If the path has no parents in it, then this is the nearest one of all ancestors, for an
absolute path always, and for a relative one if it is not above the working directory. -/
theorem findProjectSettings?_exact (hplain : fs.Plain) (h : fs.resolve? path = some place) :
    (fs.findProjectSettings? path).map fs.resolve? =
      ((fs.passes (fs.directoryComponents path)).find? fs.holdsSettings).map
        (fun dir => some (dir ++ [projectFileName])) ∧
    (.parent ∉ Path.components path → path.startsWith "/" →
      (fs.passes (fs.directoryComponents path)).find? fs.holdsSettings =
        (ancestry (fs.directoryOf place)).find? fs.holdsSettings) ∧
    (.parent ∉ Path.components path → ¬path.startsWith "/" →
      (fs.passes (fs.directoryComponents path)).find? fs.holdsSettings =
        ((ancestry (fs.directoryOf place)).find? fs.holdsSettings).filter
          fs.workingDir.isPrefixOf) := by
  refine ⟨hplain.map_findProjectSettings? h, ?_, ?_⟩
  · intro hparent habsolute
    rw [hplain.passes_of_absolute h hparent habsolute]
  · intro hparent hrelative
    exact hplain.find?_passes_of_relative h hparent hrelative _

/-- A project, and in it a directory of work with a project of its own in one of two
subdirectories. -/
def twoProjects : FileSystem :=
  let settings := (projectFileName, FileNode.file none)
  ⟨.dir [settings, ("work", .dir [("a", .dir [settings]), ("b", .dir [])])], ["work"]⟩

theorem plain_twoProjects : twoProjects.Plain :=
  ⟨by simp only [twoProjects, FileNode.Plain, FileNode.PlainEntries]; decide, by decide⟩

/-- From an absolute path the settings file is found that is two directories up. -/
theorem findProjectSettings?_exact_of_absolute :
    (twoProjects.findProjectSettings? "/work/b").map twoProjects.resolve? =
      some (some [projectFileName]) := by
  have hplace : twoProjects.resolve? "/work/b" = some ["work", "b"] :=
    plain_twoProjects.resolve?_of_descend? (by decide) (by decide) (by decide)
  have habsolute : "/work/b".startsWith "/" = true := Path.startsWith_iff_head?.2 (by decide)
  obtain ⟨hfound, hnearest, -⟩ := findProjectSettings?_exact plain_twoProjects hplace
  rw [hfound, hnearest (by decide) habsolute]
  decide

/-- The same directory given relative to the working directory finds nothing, and reached from
inside of the other one it finds the settings file there, which is not above it. -/
theorem findProjectSettings?_misses :
    twoProjects.Plain ∧
      twoProjects.resolve? "/work/b" = some ["work", "b"] ∧
      twoProjects.resolve? "b" = some ["work", "b"] ∧
      twoProjects.resolve? "a/../b" = some ["work", "b"] ∧
      (twoProjects.findProjectSettings? "/work/b").map twoProjects.resolve? =
        some (some [projectFileName]) ∧
      twoProjects.findProjectSettings? "b" = none ∧
      (twoProjects.findProjectSettings? "a/../b").map twoProjects.resolve? =
        some (some ["work", "a", projectFileName]) := by
  have hplace : ∀ path ∈ ["/work/b", "b", "a/../b"],
      twoProjects.resolve? path = some ["work", "b"] := by
    intro path hpath
    refine plain_twoProjects.resolve?_of_descend? ?_ ?_ (by decide) <;> revert path <;> decide
  have hsearch : ∀ path ∈ ["/work/b", "b", "a/../b"],
      (twoProjects.findProjectSettings? path).map twoProjects.resolve? =
        ((twoProjects.passes (Path.components path)).find? twoProjects.holdsSettings).map
          fun dir => some (dir ++ [projectFileName]) := by
    intro path hpath
    have hfile := not_isFile_of_isDirAt (hplace path hpath) (by decide)
    rw [plain_twoProjects.map_findProjectSettings? (hplace path hpath), directoryComponents,
      if_neg hfile]
  refine ⟨plain_twoProjects, hplace _ (by decide), hplace _ (by decide), hplace _ (by decide),
    ?_, ?_, ?_⟩
  · rw [hsearch _ (by decide)]
    decide
  · rw [← Option.map_eq_none_iff, hsearch _ (by decide)]
    decide
  · rw [hsearch _ (by decide)]
    decide

end PoolLint.FileSystem

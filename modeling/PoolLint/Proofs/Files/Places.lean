import PoolLint.Files.Tree
import PoolLint.Proofs.Files.Spelling

/-!
# Where paths lead

In a tree without links the components of a path are walked one by one: a name leads into an
entry, the parent out of a directory, and the root back to the top. So a path that leads somewhere
leads to the place that its components spell (`placeOf_of_resolve?`), and among the paths to
directories the components are all that matters (`descend?_of_resolve?`,
`resolve?_of_descend?`).
-/

namespace PoolLint

/-- The place that a component leads to from another one. -/
def Component.move (place : List String) : Component → List String
  | root => []
  | current => place
  | parent => place.dropLast
  | name text => place ++ [text]

/-! ## Trees without links -/

namespace FileNode

mutual

/-- There is no link in the tree, and the names in each directory are proper and distinct. -/
def Plain : FileNode → Prop
  | file _ => True
  | link _ => False
  | dir entries => PlainEntries entries

/-- There is no link at or below these entries, and their names are proper and distinct. -/
def PlainEntries : List (String × FileNode) → Prop
  | [] => True
  | (name, node) :: rest =>
    Path.IsName name ∧ rest.lookup name = none ∧ Plain node ∧ PlainEntries rest

end

variable {node child : FileNode} {entries : List (String × FileNode)} {name : String}
variable {place more : List String} {text : Option String}

theorem lookup_cons_iff {rest : List (String × FileNode)} {n : String}
    (hnew : rest.lookup name = none) : ((name, node) :: rest).lookup n = some child ↔
      (n = name ∧ node = child) ∨ rest.lookup n = some child := by
  rw [List.lookup_cons]
  by_cases hsame : n = name
  · simp [hsame, hnew]
  · rw [beq_eq_false_iff_ne.2 hsame]
    simp [hsame]

theorem isSome_lookup_cons {rest : List (String × FileNode)} {n : String} :
    (((name, node) :: rest).lookup n).isSome ↔ n = name ∨ (rest.lookup n).isSome := by
  rw [List.lookup_cons]
  by_cases hsame : n = name
  · simp [hsame]
  · rw [beq_eq_false_iff_ne.2 hsame]
    simp [hsame]

theorem PlainEntries.lookup (h : PlainEntries entries) (hentry : entries.lookup name = some child) :
    Path.IsName name ∧ child.Plain := by
  induction entries with
  | nil => simp at hentry
  | cons entry rest ih =>
    obtain ⟨n, node⟩ := entry
    obtain ⟨hname, hnew, hnode, hrest⟩ := h
    rcases (lookup_cons_iff hnew).1 hentry with ⟨rfl, rfl⟩ | hentry
    · exact ⟨hname, hnode⟩
    · exact ih hrest hentry

theorem Plain.entry (h : node.Plain) (hentry : node.entry? name = some child) :
    Path.IsName name ∧ child.Plain := by
  cases node with
  | file text => simp [FileNode.entry?] at hentry
  | link target => simp [FileNode.entry?] at hentry
  | dir entries => exact PlainEntries.lookup h hentry

/-! ## Places -/

@[simp]
theorem at?_nil : node.at? [] = some node :=
  rfl

theorem at?_append : node.at? (place ++ more) = (node.at? place).bind (at? more) := by
  induction place generalizing node with
  | nil => rfl
  | cons name place ih =>
    show (node.entry? name).bind (at? (place ++ more)) =
      ((node.entry? name).bind (at? place)).bind (at? more)
    cases node.entry? name with
    | none => rfl
    | some child => exact ih

theorem at?_concat :
    node.at? (place ++ [name]) = (node.at? place).bind fun node => node.entry? name := by
  rw [at?_append]
  congr 1
  funext child
  show (child.entry? name).bind some = child.entry? name
  cases child.entry? name <;> rfl

theorem isSome_of_append (h : (node.at? (place ++ more)).isSome) : (node.at? place).isSome := by
  rw [at?_append] at h
  exact Option.isSome_of_isSome_bind h

/-- Only directories have something below them. -/
theorem dir_of_entry? (h : node.entry? name = some child) : ∃ entries, node = dir entries := by
  cases node with
  | file text => simp [FileNode.entry?] at h
  | link target => simp [FileNode.entry?] at h
  | dir entries => exact ⟨entries, rfl⟩

theorem Plain.at? (h : node.Plain) (hchild : node.at? place = some child) : child.Plain := by
  induction place generalizing node with
  | nil => exact Option.some.inj hchild ▸ h
  | cons name place ih =>
    obtain ⟨next, hnext, hchild⟩ := Option.bind_eq_some_iff.1 hchild
    exact ih (h.entry hnext).2 hchild

theorem size_le_of_lookup (h : entries.lookup name = some child) : child.size ≤ sizes entries := by
  induction entries with
  | nil => simp at h
  | cons entry rest ih =>
    obtain ⟨n, node⟩ := entry
    rw [List.lookup_cons] at h
    rw [sizes]
    split at h
    · rw [Option.some.inj h]
      omega
    · have hrest := ih h
      omega

/-- What is in a tree is not larger than the tree. -/
theorem size_at?_le (h : node.at? place = some child) : child.size ≤ node.size := by
  induction place generalizing node with
  | nil => exact (congrArg size (Option.some.inj h)).ge
  | cons name place ih =>
    obtain ⟨next, hnext, hchild⟩ := Option.bind_eq_some_iff.1 h
    obtain ⟨entries, rfl⟩ := dir_of_entry? hnext
    have hentry := size_le_of_lookup hnext
    have hbelow := ih hchild
    rw [size]
    omega

end FileNode

namespace FileSystem

/-- A tree without links, and a working directory that is one of its directories. -/
structure Plain (fs : FileSystem) : Prop where
  tree : fs.root.Plain
  workingDir : fs.isDirAt fs.workingDir

variable {fs : FileSystem} {place more top : List String} {name path : String}

theorem isDirAt_iff :
    fs.isDirAt place = true ↔ ∃ entries, fs.root.at? place = some (.dir entries) := by
  unfold isDirAt
  split
  · rename_i entries h
    exact ⟨fun _ => ⟨entries, h⟩, fun _ => rfl⟩
  · rename_i h
    exact ⟨fun h' => by simp at h', fun ⟨entries, hdir⟩ => absurd hdir (h entries)⟩

theorem isDirAt_of_concat (h : (fs.root.at? (place ++ [name])).isSome) : fs.isDirAt place := by
  rw [FileNode.at?_concat, Option.isSome_iff_exists] at h
  obtain ⟨child, hchild⟩ := h
  obtain ⟨node, hnode, hentry⟩ := Option.bind_eq_some_iff.1 hchild
  obtain ⟨entries, rfl⟩ := FileNode.dir_of_entry? hentry
  exact isDirAt_iff.2 ⟨entries, hnode⟩

/-- What leads to a directory leads through directories. -/
theorem isDirAt_of_append (h : fs.isDirAt (place ++ more)) : fs.isDirAt place := by
  induction more using List.reverseRecOn with
  | nil => simpa using h
  | append_singleton more name ih =>
    obtain ⟨entries, hentries⟩ := isDirAt_iff.1 h
    rw [← List.append_assoc] at hentries
    exact ih (isDirAt_of_concat (Option.isSome_of_eq_some hentries))

theorem isDirAt_dropLast (h : fs.isDirAt place) : fs.isDirAt place.dropLast := by
  cases place using List.reverseRecOn with
  | nil => exact h
  | append_singleton front name =>
    rw [List.dropLast_concat]
    exact isDirAt_of_append h

namespace Plain

variable (hplain : fs.Plain)
include hplain

theorem root : fs.isDirAt [] :=
  isDirAt_of_append (List.nil_append fs.workingDir ▸ hplain.workingDir)

theorem isName (h : (fs.root.at? (place ++ [name])).isSome) : Path.IsName name := by
  obtain ⟨child, hchild⟩ := Option.isSome_iff_exists.1 h
  rw [FileNode.at?_concat] at hchild
  obtain ⟨node, hnode, hentry⟩ := Option.bind_eq_some_iff.1 hchild
  exact ((hplain.tree.at? hnode).entry hentry).1

theorem not_link (target : String) : fs.root.at? place ≠ some (.link target) := by
  intro h
  exact hplain.tree.at? h

end Plain

/-! ## Walking components -/

/-- The place that a path spells, whether there is something or not. -/
def placeOf (fs : FileSystem) (path : String) : List String :=
  (Path.components path).foldl Component.move fs.workingDir

/-- Walks components from a place, each of them out of a directory. -/
def descend? (fs : FileSystem) (place : List String) : List Component → Option (List String)
  | [] => some place
  | c :: cs =>
    if fs.isDirAt place && (fs.root.at? (c.move place)).isSome then fs.descend? (c.move place) cs
    else none

theorem foldl_move_names (place names : List String) :
    (names.map Component.name).foldl Component.move place = place ++ names := by
  induction names generalizing place with
  | nil => simp
  | cons name names ih =>
    rw [List.map_cons, List.foldl_cons, ih, List.append_cons]
    rfl

variable {c : Component} {cs ds : List Component} {segs tail : List String} {links : Nat}

theorem descend?_cons_eq_some_iff : fs.descend? place (c :: cs) = some top ↔
    fs.isDirAt place ∧ (fs.root.at? (c.move place)).isSome ∧
      fs.descend? (c.move place) cs = some top := by
  rw [descend?]
  split
  · rename_i h
    rw [Bool.and_eq_true] at h
    simp [h.1, h.2]
  · rename_i h
    rw [Bool.and_eq_true] at h
    simp only [reduceCtorEq, false_iff]
    exact fun ⟨hdir, hsome, _⟩ => h ⟨hdir, hsome⟩

theorem descend?_append :
    fs.descend? place (cs ++ ds) = (fs.descend? place cs).bind fun q => fs.descend? q ds := by
  induction cs generalizing place with
  | nil => rfl
  | cons c cs ih =>
    rw [List.cons_append, descend?, descend?]
    split
    · exact ih
    · rfl

theorem foldl_of_descend? (h : fs.descend? place cs = some top) :
    top = cs.foldl Component.move place := by
  induction cs generalizing place with
  | nil => exact (Option.some.inj h).symm
  | cons c cs ih => exact ih (descend?_cons_eq_some_iff.1 h).2.2

theorem isSome_of_descend? (hplace : (fs.root.at? place).isSome)
    (h : fs.descend? place cs = some top) : (fs.root.at? top).isSome := by
  induction cs generalizing place with
  | nil => exact Option.some.inj h ▸ hplace
  | cons c cs ih =>
    obtain ⟨-, hsome, h⟩ := descend?_cons_eq_some_iff.1 h
    exact ih hsome h

theorem isDirAt_of_descend? (h : fs.descend? place cs = some top) (htop : fs.isDirAt top) :
    fs.isDirAt place := by
  cases cs with
  | nil => exact Option.some.inj h ▸ htop
  | cons c cs => exact (descend?_cons_eq_some_iff.1 h).1

/-! ## Following segments -/

theorem follow_of_not_isDirAt (links : Nat) (hdir : fs.isDirAt place = false) :
    fs.follow links place (name :: segs) = none := by
  rw [follow, hdir]
  rfl

/-- A segment that is no component only asks for a directory. -/
theorem follow_cons_none (links : Nat) (h : Path.innerComponent? name = none) :
    fs.follow links place (name :: segs) =
      if fs.isDirAt place then fs.follow links place segs else none := by
  by_cases hdir : fs.isDirAt place
  · rw [follow]
    simp [hdir, Path.innerComponent?_eq_none.1 h]
  · rw [Bool.not_eq_true] at hdir
    rw [follow_of_not_isDirAt links hdir, hdir]
    rfl

namespace Plain

variable (hplain : fs.Plain)
include hplain

/-- A segment that is a component leads where the component does, if there is something. -/
theorem follow_cons_some (links : Nat) (h : Path.innerComponent? name = some c) :
    fs.follow links place (name :: segs) =
      if fs.isDirAt place && (fs.root.at? (c.move place)).isSome then
        fs.follow links (c.move place) segs
      else none := by
  by_cases hdir : fs.isDirAt place
  swap
  · rw [Bool.not_eq_true] at hdir
    rw [follow_of_not_isDirAt links hdir, hdir]
    rfl
  have hcomponent : ¬(name = "" ∨ name = ".") := by
    rw [← Path.innerComponent?_eq_none, h]
    simp
  rw [follow]
  simp only [hdir, Bool.not_true, Bool.false_eq_true, if_false, Bool.or_eq_true,
    decide_eq_true_eq, hcomponent, Bool.true_and]
  by_cases hdots : name = ".."
  · have hparent : c = .parent := by simpa [hdots, Path.innerComponent?] using h.symm
    have hup : (fs.root.at? place.dropLast).isSome := by
      obtain ⟨entries, hentries⟩ := isDirAt_iff.1 (isDirAt_dropLast hdir)
      simp [hentries]
    simp [hdots, hparent, Component.move, hup]
  · have hname : c = .name name := by
      simp only [not_or] at hcomponent
      simpa [Path.innerComponent?, hcomponent, hdots] using h.symm
    rw [if_neg hdots, hname]
    split
    · rename_i hnone
      exact (if_neg (by simp [Component.move, hnone])).symm
    · rename_i target hlink
      exact absurd hlink (hplain.not_link target)
    · rename_i node hsome hnode
      exact (if_pos (by simp [Component.move, hnode])).symm

theorem follow_append (links : Nat) :
    fs.follow links place (segs ++ tail) =
      (fs.follow links place segs).bind fun q => fs.follow links q tail := by
  induction segs generalizing place with
  | nil =>
    rw [follow]
    rfl
  | cons s segs ih =>
    rw [List.cons_append]
    cases hc : Path.innerComponent? s with
    | none =>
      rw [follow_cons_none links hc, follow_cons_none links hc]
      split
      · exact ih
      · rfl
    | some c =>
      rw [hplain.follow_cons_some links hc, hplain.follow_cons_some links hc]
      split
      · exact ih
      · rfl

/-- What is followed segment by segment is walked component by component. -/
theorem descend?_of_follow (h : fs.follow links place segs = some top) :
    fs.descend? place (segs.filterMap Path.innerComponent?) = some top := by
  induction segs generalizing place with
  | nil => simpa [follow, descend?] using h
  | cons s segs ih =>
    cases hc : Path.innerComponent? s with
    | none =>
      rw [follow_cons_none links hc] at h
      rw [List.filterMap_cons_none hc]
      split at h
      · exact ih h
      · contradiction
    | some c =>
      rw [hplain.follow_cons_some links hc] at h
      rw [List.filterMap_cons_some hc, descend?]
      split at h
      · rename_i hdir
        rw [if_pos hdir]
        exact ih h
      · contradiction

/-- To a directory the segments can be followed that are no components, too. -/
theorem follow_of_descend? (links : Nat)
    (h : fs.descend? place (segs.filterMap Path.innerComponent?) = some top)
    (htop : fs.isDirAt top) : fs.follow links place segs = some top := by
  induction segs generalizing place with
  | nil => simpa [follow, descend?] using h
  | cons s segs ih =>
    cases hc : Path.innerComponent? s with
    | none =>
      rw [List.filterMap_cons_none hc] at h
      rw [follow_cons_none links hc, if_pos (isDirAt_of_descend? h htop)]
      exact ih h
    | some c =>
      rw [List.filterMap_cons_some hc, descend?] at h
      rw [hplain.follow_cons_some links hc]
      split at h
      · rename_i hdir
        rw [if_pos hdir]
        exact ih h
      · contradiction

end Plain

/-! ## Resolving paths -/

/-- The place that a path starts from. -/
def startOf (fs : FileSystem) (path : String) : List String :=
  if path.startsWith "/" then [] else fs.workingDir

theorem resolve?_eq (h : path ≠ "") :
    fs.resolve? path = fs.follow maxLinks (fs.startOf path) (Path.segments path) := by
  have hempty : path.isEmpty = false := by simpa using h
  rw [resolve?, hempty]
  rfl

theorem ne_empty_of_resolve? (h : fs.resolve? path = some top) : path ≠ "" := by
  intro hempty
  rw [hempty] at h
  contradiction

namespace Plain

variable (hplain : fs.Plain)
include hplain

/-- The first component tells where a path starts. -/
theorem descend?_components (h : path ≠ "") :
    fs.descend? fs.workingDir (Path.components path) =
      fs.descend? (fs.startOf path) ((Path.segments path).filterMap Path.innerComponent?) := by
  have habsolute : path.startsWith "/" = true ↔
      path ≠ "" ∧ ∃ rest, Path.segments path = "" :: rest := Path.startsWith_slash_iff
  rw [Path.components_eq h]
  unfold startOf
  obtain ⟨first, rest, hsegs⟩ := List.exists_cons_of_ne_nil (Path.segments_ne_nil path)
  rw [hsegs] at habsolute ⊢
  rw [Path.componentsOf]
  obtain ⟨entries, hentries⟩ := isDirAt_iff.1 hplain.workingDir
  by_cases hempty : first = ""
  · -- the root leads to the top, whatever place the walk comes from
    have hnone : Path.innerComponent? first = none := Path.innerComponent?_eq_none.2 (Or.inl hempty)
    rw [if_pos (habsolute.2 ⟨h, rest, by rw [hempty]⟩), if_pos hempty,
      List.filterMap_cons_none hnone, List.singleton_append, descend?]
    simp [hplain.workingDir, Component.move]
  have hrelative : ¬path.startsWith "/" = true := by
    intro hstarts
    exact hempty (by simpa using (habsolute.1 hstarts).2)
  rw [if_neg hempty, if_neg hrelative]
  by_cases hdot : first = "."
  · -- only as the first segment is a dot a component, and it leads nowhere else
    have hnone : Path.innerComponent? first = none := Path.innerComponent?_eq_none.2 (Or.inr hdot)
    rw [if_pos hdot, List.filterMap_cons_none hnone, List.singleton_append, descend?]
    simp [hplain.workingDir, Component.move, hentries]
  · have hinner : Path.innerComponent? first ≠ none := by
      simp [Path.innerComponent?_eq_none, hempty, hdot]
    obtain ⟨c, hc⟩ := Option.ne_none_iff_exists'.1 hinner
    rw [if_neg hdot, List.filterMap_cons_some hc, hc]
    rfl

/-- A path that leads somewhere is walked component by component. -/
theorem descend?_of_resolve? (h : fs.resolve? path = some top) :
    fs.descend? fs.workingDir (Path.components path) = some top := by
  have hpath := ne_empty_of_resolve? h
  rw [resolve?_eq hpath] at h
  rw [hplain.descend?_components hpath]
  exact hplain.descend?_of_follow h

/-- A path leads to a directory if its components do. -/
theorem resolve?_of_descend? (hpath : path ≠ "")
    (h : fs.descend? fs.workingDir (Path.components path) = some top) (htop : fs.isDirAt top) :
    fs.resolve? path = some top := by
  rw [hplain.descend?_components hpath] at h
  rw [resolve?_eq hpath]
  exact hplain.follow_of_descend? maxLinks h htop

/-- A path that leads somewhere leads to the place that it spells. -/
theorem placeOf_of_resolve? (h : fs.resolve? path = some top) : fs.placeOf path = top :=
  (foldl_of_descend? (hplain.descend?_of_resolve? h)).symm

theorem isSome_of_resolve? (h : fs.resolve? path = some top) : (fs.root.at? top).isSome := by
  obtain ⟨entries, hentries⟩ := isDirAt_iff.1 hplain.workingDir
  exact isSome_of_descend? (Option.isSome_of_eq_some hentries) (hplain.descend?_of_resolve? h)

theorem follow_name (links : Nat) (hname : Path.IsName name) :
    fs.follow links place [name] =
      (fs.root.at? (place ++ [name])).map fun _ => place ++ [name] := by
  rw [hplain.follow_cons_some links hname.innerComponent?]
  show (if fs.isDirAt place && (fs.root.at? (place ++ [name])).isSome then _ else none) = _
  cases hchild : fs.root.at? (place ++ [name]) with
  | none => simp
  | some child =>
    simp [isDirAt_of_concat (Option.isSome_of_eq_some hchild), Component.move, follow]

/-- A name that is joined to a path is looked up where the path leads. -/
theorem resolve?_join (hname : Path.IsName name)
    (h : path = "" ∧ place = fs.workingDir ∨ fs.resolve? path = some place) :
    fs.resolve? (Path.join path name) =
      (fs.root.at? (place ++ [name])).map fun _ => place ++ [name] := by
  rw [← hplain.follow_name maxLinks hname]
  rcases h with ⟨rfl, rfl⟩ | h
  · rw [Path.join_empty hname, resolve?_eq hname.ne_empty, startOf, hname.not_startsWith,
      Path.segments_of_slashless hname.slashless]
    rfl
  have hpath := ne_empty_of_resolve? h
  obtain ⟨front, -, hsegs, hbefore⟩ := Path.segments_join hname hpath
  have hjoin : Path.join path name ≠ "" := by
    rw [Path.join_of_ne_empty hname hpath]
    simp [hpath]
  have hstart : fs.startOf (Path.join path name) = fs.startOf path := by
    rw [startOf, Path.join_of_ne_empty hname hpath, Path.startsWith_append hpath]
    rfl
  -- an empty segment at the end, which the name takes the place of, leads nowhere else
  have hfront : fs.follow maxLinks (fs.startOf path) front = some place := by
    rw [resolve?_eq hpath] at h
    rcases hbefore with hsame | hslash
    · rwa [hsame] at h
    · rw [hslash, hplain.follow_append] at h
      obtain ⟨q, hq, hlast⟩ := Option.bind_eq_some_iff.1 h
      rw [follow_cons_none maxLinks rfl, follow] at hlast
      split at hlast
      · rw [hq, hlast]
      · contradiction
  rw [resolve?_eq hjoin, hstart, hsegs, hplain.follow_append, hfront]
  rfl

/-- The last component of a path to a file is the name of the file; what is before it leads to the
directory of the file. -/
theorem components_of_file {text : Option String} (h : fs.resolve? path = some place)
    (hfile : fs.root.at? place = some (.file text)) :
    ∃ cs dir name, Path.components path = cs ++ [.name name] ∧
      fs.descend? fs.workingDir cs = some dir ∧ place = dir ++ [name] := by
  have hdir : fs.isDirAt place ≠ true := by
    rw [ne_eq, isDirAt_iff, hfile]
    simp
  have hwalk := hplain.descend?_of_resolve? h
  cases hcomponents : Path.components path using List.reverseRecOn with
  | nil =>
    rw [hcomponents] at hwalk
    exact absurd hplain.workingDir (Option.some.inj hwalk ▸ hdir)
  | append_singleton cs c =>
    rw [hcomponents, descend?_append] at hwalk
    obtain ⟨dir, hcs, hlast⟩ := Option.bind_eq_some_iff.1 hwalk
    obtain ⟨hisdir, -, hmove⟩ := descend?_cons_eq_some_iff.1 hlast
    have hplace : c.move dir = place := Option.some.inj hmove
    -- every other component leads to a directory
    rw [← hplace] at hdir
    cases c with
    | root => exact absurd hplain.root hdir
    | current => exact absurd hisdir hdir
    | parent => exact absurd (isDirAt_dropLast hisdir) hdir
    | name text => exact ⟨cs, dir, text, rfl, hcs, hplace.symm⟩

end Plain

end FileSystem
end PoolLint

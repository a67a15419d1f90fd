import Mathlib.Data.List.Nodup
import PoolLint.Files.Collect
import PoolLint.Proofs.Files.Places

/-!
# Collecting class files

In a tree without links the only error is that of the first argument that leads nowhere or to a
file of another kind. If there is none, then exactly the class files at and below the arguments are
collected, in order, and no path twice (`collectUnits_exact`). A file can still be named twice, but
only where two arguments lead to it by different spellings: what keeps paths apart are their
components, and not the places they lead to.
-/

namespace PoolLint

open Std

variable {a b file path name : String} {place top names : List String} {text : Option String}
variable {entries : List (String × FileNode)}

/-! ## Class files -/

theorem isUnitFile_of_components {cs : List Component} (hname : Path.IsName name)
    (h : Path.components path = cs ++ [.name name]) : isUnitFile path = isUnitFile name := by
  have hfile : Path.fileName? path = some name := by
    rw [Path.fileName?, h, List.getLast?_concat]
  have hself : Path.fileName? name = some name := by
    have hcomponents := Path.components_join "" hname
    rw [Path.join_empty hname, Path.components_empty, List.nil_append] at hcomponents
    rw [Path.fileName?, hcomponents]
    rfl
  unfold isUnitFile unitFormat? Path.extension?
  rw [hfile, hself]

namespace FileSystem

variable {fs : FileSystem}

/-- There is a class file at a place. -/
def IsUnitAt (fs : FileSystem) (place : List String) : Prop :=
  ∃ dir name text, place = dir ++ [name] ∧ isUnitFile name ∧
    fs.root.at? place = some (.file text)

/-- A class file at or below a place, spelled as a continuation of a path to that place. -/
def SpellsUnit (fs : FileSystem) (path : String) (place : List String) (file : String) : Prop :=
  ∃ names, fs.IsUnitAt (place ++ names) ∧ file = names.foldl Path.join path

/-- Why an argument is refused: it leads nowhere, or to a file that is no class file. -/
def refusal? (fs : FileSystem) (path : String) : Option LoadError :=
  if !fs.pathExists path then some (.notFound path)
  else if fs.isFile path && !isUnitFile path then some (.unsupported path)
  else none

/-- A directory is never refused. -/
theorem refusal?_of_isDirAt (h : fs.resolve? path = some place) (hdir : fs.isDirAt place) :
    fs.refusal? path = none := by
  obtain ⟨entries, hentries⟩ := isDirAt_iff.1 hdir
  have hnode : fs.node? path = some (.dir entries) := by
    rw [node?, h, Option.bind_some, hentries]
  unfold refusal? pathExists isFile
  rw [hnode]
  rfl

theorem IsUnitAt.isSome (h : fs.IsUnitAt place) : (fs.root.at? place).isSome := by
  obtain ⟨dir, name, text, -, -, hfile⟩ := h
  simp [hfile]

/-- Nothing is below a file. -/
theorem at?_below_file (hfile : fs.root.at? place = some (.file text)) (hne : names ≠ []) :
    fs.root.at? (place ++ names) = none := by
  obtain ⟨name, rest, rfl⟩ := List.exists_cons_of_ne_nil hne
  rw [FileNode.at?_append, hfile]
  rfl

namespace Plain

variable (hplain : fs.Plain)
include hplain

/-- A path is continued by the names on the way to a place below. -/
theorem resolve?_foldl_join (h : fs.resolve? path = some place)
    (hsome : (fs.root.at? (place ++ names)).isSome) :
    fs.resolve? (names.foldl Path.join path) = some (place ++ names) ∧
      Path.components (names.foldl Path.join path) =
        Path.components path ++ names.map Component.name := by
  induction names generalizing path place with
  | nil => simpa using h
  | cons name names ih =>
    rw [List.append_cons] at hsome
    have hchild : (fs.root.at? (place ++ [name])).isSome := FileNode.isSome_of_append hsome
    have hname := hplain.isName hchild
    have hjoin : fs.resolve? (Path.join path name) = some (place ++ [name]) := by
      obtain ⟨child, hchild⟩ := Option.isSome_iff_exists.1 hchild
      rw [hplain.resolve?_join hname (Or.inr h), hchild]
      rfl
    obtain ⟨hplace, hcomponents⟩ := ih hjoin hsome
    refine ⟨by simpa using hplace, ?_⟩
    rw [List.foldl_cons, hcomponents, Path.components_join path hname]
    simp

/-- A file is a class file if its path is that of one. -/
theorem isUnitAt_iff (h : fs.resolve? path = some place)
    (hfile : fs.root.at? place = some (.file text)) : fs.IsUnitAt place ↔ isUnitFile path := by
  obtain ⟨cs, dir, name, hcomponents, -, hplace⟩ := hplain.components_of_file h hfile
  have hsome : (fs.root.at? (dir ++ [name])).isSome := by
    rw [← hplace, hfile]
    rfl
  have hname := hplain.isName hsome
  rw [isUnitFile_of_components hname hcomponents]
  constructor
  · intro hunit
    obtain ⟨dir', name', text', hplace', hunit, -⟩ := hunit
    have hsame : [name] = [name'] := List.append_inj_right' (hplace.symm.trans hplace') rfl
    rwa [List.singleton_inj.1 hsame]
  · intro hunit
    exact ⟨dir, name, text, hplace, hunit, hfile⟩

/-- At a file the only class file is that file itself. -/
theorem spellsUnit_file_iff (h : fs.resolve? path = some place)
    (hfile : fs.root.at? place = some (.file text)) :
    fs.SpellsUnit path place file ↔ file ∈ if isUnitFile path then [path] else [] := by
  have hunit := hplain.isUnitAt_iff h hfile
  constructor
  · intro hspells
    obtain ⟨names, hat, hspelled⟩ := hspells
    have hnil : names = [] := by
      by_contra hne
      have hsome := hat.isSome
      rw [at?_below_file hfile hne] at hsome
      contradiction
    rw [hnil, List.append_nil] at hat
    rw [hnil] at hspelled
    simpa [hunit.1 hat] using hspelled
  · intro hmem
    by_cases hpath : isUnitFile path
    · rw [if_pos hpath, List.mem_singleton] at hmem
      exact ⟨[], by simpa using hunit.2 hpath, hmem⟩
    · rw [if_neg hpath] at hmem
      exact absurd hmem List.not_mem_nil

end Plain

/-- In a directory the class files are those of the entries. -/
theorem spellsUnit_dir_iff (hdir : fs.root.at? place = some (.dir entries)) :
    fs.SpellsUnit path place file ↔ ∃ name, (entries.lookup name).isSome ∧
      fs.SpellsUnit (Path.join path name) (place ++ [name]) file := by
  constructor
  · intro hspells
    obtain ⟨names, hat, hspelled⟩ := hspells
    cases names with
    | nil =>
      obtain ⟨dir, name, text, -, -, hfile⟩ := hat
      rw [List.append_nil, hdir] at hfile
      simp at hfile
    | cons name names =>
      rw [List.append_cons] at hat
      have hentry := FileNode.isSome_of_append hat.isSome
      rw [FileNode.at?_concat, hdir] at hentry
      exact ⟨name, hentry, names, hat, hspelled⟩
  · intro hspells
    obtain ⟨name, -, names, hat, hspelled⟩ := hspells
    rw [← List.append_cons] at hat
    exact ⟨name :: names, hat, hspelled⟩

/-! ## Walking directories -/

theorem walkDir_of_dir (fuel : Nat) (above : List (List String))
    (hdir : fs.root.at? place = some (.dir entries)) :
    fs.walkDir (fuel + 1) above place path =
      fs.walkEntries fuel (place :: above) place path entries := by
  rw [walkDir]
  exact hdir

/-- A directory that holds nothing but another one. -/
theorem walkDir_of_only {fuel : Nat} {above : List (List String)}
    (hdir : fs.root.at? place = some (.dir [(name, .dir entries)])) :
    fs.walkDir (fuel + 1) above place path =
      fs.walkDir fuel (place :: above) (place ++ [name]) (Path.join path name) := by
  rw [walkDir_of_dir fuel above hdir, walkEntries, walkEntries]
  simp

/-- A directory that holds nothing but a class file. -/
theorem walkDir_of_file {fuel : Nat} {above : List (List String)}
    (hdir : fs.root.at? place = some (.dir [(name, .file text)]))
    (hunit : isUnitFile (Path.join path name)) :
    fs.walkDir (fuel + 1) above place path = some [Path.join path name] := by
  rw [walkDir_of_dir fuel above hdir, walkEntries, walkEntries, if_pos hunit]
  rfl

theorem unitsOf_of_dir (h : fs.resolve? path = some place)
    (hdir : fs.root.at? place = some (.dir entries)) :
    fs.unitsOf path =
      (fs.walkDir ((fs.root.size + 1) * (fs.root.size + 1)) [] place path).elim
        (.error (.walk path)) .ok := by
  unfold unitsOf
  rw [h]
  simp only [hdir]

namespace Plain

variable (hplain : fs.Plain)
include hplain

/-- The class files among and below some entries are found if they are in every directory that can
be walked with this much fuel. -/
theorem walkEntries_exact {fuel : Nat} {above : List (List String)}
    (hdirs : ∀ {place path entries}, fs.resolve? path = some place →
      fs.root.at? place = some (.dir entries) → (FileNode.dir entries).size ≤ fuel →
      ∃ found, fs.walkDir fuel above place path = some found ∧
        ∀ file, file ∈ found ↔ fs.SpellsUnit path place file)
    (h : fs.resolve? path = some place) (hentries : FileNode.PlainEntries entries)
    (hat : ∀ name child, entries.lookup name = some child →
      fs.root.at? (place ++ [name]) = some child)
    (hsize : FileNode.sizes entries ≤ fuel) :
    ∃ found, fs.walkEntries fuel above place path entries = some found ∧
      ∀ file, file ∈ found ↔ ∃ name, (entries.lookup name).isSome ∧
        fs.SpellsUnit (Path.join path name) (place ++ [name]) file := by
  induction entries with
  | nil => exact ⟨[], by rw [walkEntries], by simp⟩
  | cons entry rest ih =>
    obtain ⟨name, node⟩ := entry
    obtain ⟨hname, hnew, hnode, hrest⟩ := hentries
    rw [FileNode.sizes] at hsize
    have hatRest : ∀ n child, rest.lookup n = some child →
        fs.root.at? (place ++ [n]) = some child := by
      intro n child hchild
      exact hat n child ((FileNode.lookup_cons_iff hnew).2 (Or.inr hchild))
    obtain ⟨more, hmore, hmemMore⟩ := ih hrest hatRest (by omega)
    have hhere : fs.root.at? (place ++ [name]) = some node :=
      hat name node ((FileNode.lookup_cons_iff hnew).2 (Or.inl ⟨rfl, rfl⟩))
    have hchild : fs.resolve? (Path.join path name) = some (place ++ [name]) := by
      rw [hplain.resolve?_join hname (Or.inr h), hhere]
      rfl
    -- what is found at this entry is put before what the others have
    have hjoined : ∀ found, (∀ file, file ∈ found ↔
        fs.SpellsUnit (Path.join path name) (place ++ [name]) file) →
        ∀ file, file ∈ found ++ more ↔ ∃ n, (((name, node) :: rest).lookup n).isSome ∧
          fs.SpellsUnit (Path.join path n) (place ++ [n]) file := by
      intro found hfound file
      rw [List.mem_append, hfound, hmemMore]
      simp only [FileNode.isSome_lookup_cons, or_and_right, exists_or, exists_eq_left]
    cases node with
    | file text =>
      refine ⟨_, ?_, hjoined _ fun file => (hplain.spellsUnit_file_iff hchild hhere).symm⟩
      rw [walkEntries, hmore]
      rfl
    | dir entries =>
      obtain ⟨found, hfound, hmem⟩ := hdirs hchild hhere (by omega)
      refine ⟨found ++ more, ?_, hjoined found hmem⟩
      rw [walkEntries, hfound, hmore]
      rfl
    | link target => exact hnode.elim

/-- Below a directory all class files are found, and nothing else. -/
theorem walkDir_exact (fuel : Nat) (above : List (List String)) (h : fs.resolve? path = some place)
    (hdir : fs.root.at? place = some (.dir entries)) (hsize : (FileNode.dir entries).size ≤ fuel) :
    ∃ found, fs.walkDir fuel above place path = some found ∧
      ∀ file, file ∈ found ↔ fs.SpellsUnit path place file := by
  induction fuel generalizing above place path entries with
  | zero =>
    rw [FileNode.size] at hsize
    omega
  | succ fuel ih =>
    rw [FileNode.size] at hsize
    have hat : ∀ name child, entries.lookup name = some child →
        fs.root.at? (place ++ [name]) = some child := by
      intro name child hchild
      rw [FileNode.at?_concat, hdir]
      exact hchild
    obtain ⟨found, hfound, hmem⟩ := hplain.walkEntries_exact
      (fun h hdir hsize => ih (place :: above) h hdir hsize) h (hplain.tree.at? hdir) hat (by omega)
    refine ⟨found, ?_, fun file => (hmem file).trans (spellsUnit_dir_iff hdir).symm⟩
    rw [walkDir_of_dir fuel above hdir, hfound]

/-! ## Arguments -/

/-- An argument is refused, or all class files at and below it are found. -/
theorem unitsOf_cases (path : String) :
    (∃ error, fs.refusal? path = some error ∧ fs.unitsOf path = .error error) ∨
      fs.refusal? path = none ∧ ∃ top found, fs.resolve? path = some top ∧
        fs.unitsOf path = .ok found ∧ ∀ file, file ∈ found ↔ fs.SpellsUnit path top file := by
  unfold refusal? pathExists isFile unitsOf node?
  cases hplace : fs.resolve? path with
  | none => exact Or.inl ⟨_, rfl, rfl⟩
  | some place =>
    obtain ⟨node, hnode⟩ := Option.isSome_iff_exists.1 (hplain.isSome_of_resolve? hplace)
    simp only [Option.bind_some, hnode]
    cases node with
    | file text =>
      by_cases hunit : isUnitFile path
      · right
        refine ⟨by simp [hunit], place, [path], rfl, by simp [hunit], fun file => ?_⟩
        rw [hplain.spellsUnit_file_iff hplace hnode, if_pos hunit]
      · exact Or.inl ⟨.unsupported path, by simp [hunit], by simp [hunit]⟩
    | dir entries =>
      right
      have hsize : (FileNode.dir entries).size ≤ (fs.root.size + 1) * (fs.root.size + 1) :=
        calc (FileNode.dir entries).size
          _ ≤ fs.root.size := FileNode.size_at?_le hnode
          _ ≤ fs.root.size + 1 := Nat.le_succ _
          _ ≤ (fs.root.size + 1) * (fs.root.size + 1) := Nat.le_mul_self _
      obtain ⟨found, hfound, hmem⟩ := hplain.walkDir_exact _ [] hplace hnode hsize
      exact ⟨rfl, place, found, rfl, by simp [hfound], hmem⟩
    | link target => exact absurd hnode (hplain.not_link target)

end Plain

/-- How the class file at a place is spelled at or below one of the arguments. -/
def Found (fs : FileSystem) (args : List String) (file : String) (place : List String) : Prop :=
  ∃ arg ∈ args, ∃ top names, fs.resolve? arg = some top ∧ place = top ++ names ∧
    fs.IsUnitAt place ∧ file = names.foldl Path.join arg

namespace Plain

variable (hplain : fs.Plain)
include hplain

theorem resolve?_of_found {args : List String} (h : fs.Found args file place) :
    fs.resolve? file = some place := by
  obtain ⟨arg, -, top, names, htop, rfl, hunit, rfl⟩ := h
  exact (hplain.resolve?_foldl_join htop hunit.isSome).1

theorem mapM_unitsOf (args : List String) :
    (∃ error, args.findSome? fs.refusal? = some error ∧ args.mapM fs.unitsOf = .error error) ∨
      args.findSome? fs.refusal? = none ∧ ∃ found, args.mapM fs.unitsOf = .ok found ∧
        ∀ file, file ∈ found.flatten ↔ ∃ place, fs.Found args file place := by
  induction args with
  | nil => exact Or.inr ⟨rfl, [], rfl, by simp [Found]⟩
  | cons arg args ih =>
    rw [List.findSome?_cons, List.mapM_cons]
    rcases hplain.unitsOf_cases arg with
      ⟨error, hrefused, herror⟩ | ⟨hnone, top, found, htop, hok, hmem⟩
    · rw [hrefused, herror]
      exact Or.inl ⟨error, rfl, rfl⟩
    · rw [hnone, hok]
      rcases ih with ⟨error, hrefused, herror⟩ | ⟨hrest, more, hmore, hmemMore⟩
      · rw [hrefused, herror]
        exact Or.inl ⟨error, rfl, rfl⟩
      · rw [hrest, hmore]
        refine Or.inr ⟨rfl, found :: more, rfl, fun file => ?_⟩
        rw [List.flatten_cons, List.mem_append, hmem, hmemMore]
        constructor
        · intro hfile
          rcases hfile with ⟨names, hunit, hfile⟩ | ⟨place, arg', harg', hfile⟩
          · exact ⟨_, arg, List.mem_cons_self, top, names, htop, rfl, hunit, hfile⟩
          · exact ⟨place, arg', List.mem_cons_of_mem _ harg', hfile⟩
        · intro hfile
          obtain ⟨place, arg', harg', top', names, htop', hplace, hunit, hfile⟩ := hfile
          rcases List.mem_cons.1 harg' with rfl | harg'
          · left
            rw [htop, Option.some.injEq] at htop'
            subst htop'
            exact ⟨names, hplace ▸ hunit, hfile⟩
          · exact Or.inr ⟨place, arg', harg', top', names, htop', hplace, hunit, hfile⟩

end Plain

/-! ## Dropping repetitions -/

theorem mem_of_mem_dropRepeats {files : List String} (h : file ∈ dropRepeats files) :
    file ∈ files := by
  fun_induction dropRepeats files with
  | case1 a b rest hsame ih =>
    have hfile := ih h
    simp only [List.mem_cons] at hfile ⊢
    tauto
  | case2 a b rest hdiffer ih =>
    rcases List.mem_cons.1 h with rfl | h
    · exact List.mem_cons_self
    · exact List.mem_cons_of_mem _ (ih h)
  | case3 => exact h

/-- What is dropped has the components of something that is kept. -/
theorem exists_mem_dropRepeats {files : List String} (h : file ∈ files) :
    ∃ same ∈ dropRepeats files, Path.components same = Path.components file := by
  fun_induction dropRepeats files generalizing file with
  | case1 a b rest hsame ih =>
    by_cases hb : file = b
    · obtain ⟨same, hmem, hcomponents⟩ := ih List.mem_cons_self
      exact ⟨same, hmem, by rw [hcomponents, hsame, hb]⟩
    · apply ih
      simp only [List.mem_cons, hb, false_or] at h ⊢
      exact h
  | case2 a b rest hdiffer ih =>
    rcases List.mem_cons.1 h with rfl | h
    · exact ⟨file, List.mem_cons_self, rfl⟩
    · obtain ⟨same, hmem, hcomponents⟩ := ih h
      exact ⟨same, List.mem_cons_of_mem _ hmem, hcomponents⟩
  | case3 => exact ⟨file, h, rfl⟩

/-- In a sorted list the repetitions are next to each other. -/
theorem pairwise_dropRepeats {files : List String}
    (h : files.Pairwise fun a b => (Path.compare a b).isLE) :
    (dropRepeats files).Pairwise fun a b => Path.compare a b = .lt := by
  fun_induction dropRepeats files with
  | case1 a b rest hsame ih =>
    exact ih (h.sublist (((List.Sublist.refl rest).cons b).cons_cons a))
  | case2 a b rest hdiffer ih =>
    obtain ⟨ha, hrest⟩ := List.pairwise_cons.1 h
    refine List.pairwise_cons.2 ⟨?_, ih hrest⟩
    intro file hfile
    have hab : Path.compare a b = .lt := by
      have hne : Path.compare a b ≠ .eq := fun heq => hdiffer (Path.compare_eq_iff.1 heq)
      have hle := ha b List.mem_cons_self
      revert hne hle
      cases Path.compare a b <;> simp
    rcases List.mem_cons.1 (mem_of_mem_dropRepeats hfile) with rfl | hfile
    · exact hab
    · exact TransCmp.lt_of_lt_of_isLE hab ((List.pairwise_cons.1 hrest).1 file hfile)
  | case3 files hshort =>
    match files, hshort with
    | [], _ => exact List.Pairwise.nil
    | [a], _ => exact List.pairwise_singleton _ a
    | a :: b :: rest, hshort => exact absurd rfl (hshort a b rest)

/-! ## Collecting -/

/-- Wherever two arguments lead to the same class file, the one that leads further down has the
components of the other one and then the names on the way. -/
def SpelledAlike (fs : FileSystem) (args : List String) : Prop :=
  ∀ a ∈ args, ∀ b ∈ args, ∀ top names more, fs.resolve? a = some top →
    fs.resolve? b = some (top ++ names) → fs.IsUnitAt (top ++ names ++ more) →
    Path.components b = Path.components a ++ names.map Component.name

/-- What is known of the paths that are collected: they are strictly sorted, each of them is a
spelling of a class file, and for each spelling of one there is a path with its components. -/
structure Collected (fs : FileSystem) (args files : List String) : Prop where
  sorted : files.Pairwise fun a b => Path.compare a b = .lt
  found : ∀ file ∈ files, ∃ place, fs.Found args file place
  kept : ∀ file place, fs.Found args file place →
    ∃ same ∈ files, Path.components same = Path.components file

namespace Plain

variable {args files : List String} {place' : List String} (hplain : fs.Plain)
include hplain

theorem collectUnits_cases (args : List String) :
    (∃ error, args.findSome? fs.refusal? = some error ∧ fs.collectUnits args = .error error) ∨
      args.findSome? fs.refusal? = none ∧
        ∃ files, fs.collectUnits args = .ok files ∧ fs.Collected args files := by
  unfold collectUnits
  rcases hplain.mapM_unitsOf args with ⟨error, hrefused, herror⟩ | ⟨hnone, found, hfound, hmem⟩
  · rw [herror]
    exact Or.inl ⟨error, hrefused, rfl⟩
  · rw [hfound]
    refine Or.inr ⟨hnone, _, rfl, ?_, ?_, ?_⟩
    · apply pairwise_dropRepeats
      exact List.pairwise_mergeSort (fun _ _ _ => TransCmp.isLE_trans) isLE_total _
    · intro file hfile
      rw [← hmem, ← List.mem_mergeSort]
      exact mem_of_mem_dropRepeats hfile
    · intro file place hfile
      exact exists_mem_dropRepeats (List.mem_mergeSort.2 ((hmem file).2 ⟨place, hfile⟩))

/-- Two spellings with the same components are of the same file. -/
theorem place_congr (ha : fs.Found args a place) (hb : fs.Found args b place')
    (h : Path.components a = Path.components b) : place = place' := by
  rw [← hplain.placeOf_of_resolve? (hplain.resolve?_of_found ha),
    ← hplain.placeOf_of_resolve? (hplain.resolve?_of_found hb), placeOf, h]
  rfl

/-- Two spellings of the same file have the same components if the arguments are spelled alike. -/
theorem components_congr (halike : fs.SpelledAlike args) (ha : fs.Found args a place)
    (hb : fs.Found args b place) : Path.components a = Path.components b := by
  -- the argument that leads further down continues the other one
  have hcontinues : ∀ {x y top top' names names'}, x ∈ args → y ∈ args →
      fs.resolve? x = some top → fs.resolve? y = some top' → place = top ++ names →
      place = top' ++ names' → top <+: top' → fs.IsUnitAt place →
      Path.components x ++ names.map Component.name =
        Path.components y ++ names'.map Component.name := by
    intro x y top top' names names' hx hy htop htop' hplace hplace' hbegins hunit
    obtain ⟨between, rfl⟩ := hbegins
    have hnames : names = between ++ names' := by
      rw [hplace, List.append_assoc] at hplace'
      exact List.append_cancel_left hplace'
    rw [hplace'] at hunit
    rw [halike x hx y hy top between names' htop htop' hunit, hnames, List.map_append,
      List.append_assoc]
  obtain ⟨x, hx, top, names, htop, hplace, hunit, rfl⟩ := ha
  obtain ⟨y, hy, top', names', htop', hplace', -, rfl⟩ := hb
  have hsome := hunit.isSome
  rw [(hplain.resolve?_foldl_join htop (hplace ▸ hsome)).2,
    (hplain.resolve?_foldl_join htop' (hplace' ▸ hsome)).2]
  have hbegins : top <+: place := ⟨names, hplace.symm⟩
  have hbegins' : top' <+: place := ⟨names', hplace'.symm⟩
  rcases List.prefix_or_prefix_of_prefix hbegins hbegins' with hle | hle
  · exact hcontinues hx hy htop htop' hplace hplace' hle hunit
  · exact (hcontinues hy hx htop' htop hplace' hplace hle hunit).symm

/-- A class file is named if it is an argument or lies below one. -/
theorem exists_file_iff (h : fs.Collected args files) :
    (∃ file ∈ files, fs.resolve? file = some place) ↔
      fs.IsUnitAt place ∧ ∃ arg ∈ args, ∃ top, fs.resolve? arg = some top ∧ top <+: place := by
  constructor
  · intro hfile
    obtain ⟨file, hmem, hplace⟩ := hfile
    obtain ⟨place', hfound⟩ := h.found file hmem
    have hsame : place' = place :=
      Option.some.inj ((hplain.resolve?_of_found hfound).symm.trans hplace)
    subst hsame
    obtain ⟨arg, harg, top, names, htop, hbelow, hunit, -⟩ := hfound
    exact ⟨hunit, arg, harg, top, htop, names, hbelow.symm⟩
  · intro hcovered
    obtain ⟨hunit, arg, harg, top, htop, names, hbelow⟩ := hcovered
    have hfound : fs.Found args (names.foldl Path.join arg) place :=
      ⟨arg, harg, top, names, htop, hbelow.symm, hunit, rfl⟩
    obtain ⟨same, hsame, hcomponents⟩ := h.kept _ _ hfound
    obtain ⟨place', hfound'⟩ := h.found same hsame
    refine ⟨same, hsame, ?_⟩
    rw [hplain.resolve?_of_found hfound', hplain.place_congr hfound' hfound hcomponents]

/-- No file is named twice if no two arguments lead to it by different spellings. -/
theorem nodup_iff_spelledAlike (h : fs.Collected args files) :
    (files.map fs.resolve?).Nodup ↔ fs.SpelledAlike args := by
  constructor
  · intro hnodup a ha b hb top names more htop hbelow hunit
    have hfounda : fs.Found args ((names ++ more).foldl Path.join a) (top ++ names ++ more) :=
      ⟨a, ha, top, names ++ more, htop, List.append_assoc _ _ _, hunit, rfl⟩
    have hfoundb : fs.Found args (more.foldl Path.join b) (top ++ names ++ more) :=
      ⟨b, hb, top ++ names, more, hbelow, rfl, hunit, rfl⟩
    have hcomponentsa := (hplain.resolve?_foldl_join htop
      (List.append_assoc _ _ _ ▸ hunit.isSome : (fs.root.at? (top ++ (names ++ more))).isSome)).2
    have hcomponentsb := (hplain.resolve?_foldl_join hbelow hunit.isSome).2
    -- both spellings are kept as paths to one place, so as one path
    obtain ⟨samea, hsamea, ha'⟩ := h.kept _ _ hfounda
    obtain ⟨sameb, hsameb, hb'⟩ := h.kept _ _ hfoundb
    obtain ⟨placea, hplacea⟩ := h.found samea hsamea
    obtain ⟨placeb, hplaceb⟩ := h.found sameb hsameb
    have hsame : samea = sameb := by
      apply List.inj_on_of_nodup_map hnodup hsamea hsameb
      rw [hplain.resolve?_of_found hplacea, hplain.resolve?_of_found hplaceb,
        hplain.place_congr hplacea hfounda ha', hplain.place_congr hplaceb hfoundb hb']
    rw [← hsame, ha', hcomponentsa, hcomponentsb, List.map_append, ← List.append_assoc] at hb'
    exact (List.append_cancel_right hb').symm
  · intro halike
    rw [List.Nodup, List.pairwise_map]
    refine h.sorted.imp_of_mem ?_
    intro a b ha hb hlt hsame
    obtain ⟨place, hplace⟩ := h.found a ha
    obtain ⟨place', hplace'⟩ := h.found b hb
    rw [hplain.resolve?_of_found hplace, hplain.resolve?_of_found hplace',
      Option.some.injEq] at hsame
    have heq := Path.compare_eq_iff.2 (hplain.components_congr halike hplace (hsame ▸ hplace'))
    rw [hlt] at heq
    contradiction

/-- Arguments that start with the same components and go on with names are spelled alike. -/
theorem spelledAlike_of_common (cs : List Component)
    (h : ∀ arg ∈ args, ∃ names : List String,
      Path.components arg = cs ++ names.map Component.name) : fs.SpelledAlike args := by
  intro a ha b hb top names more htop hbelow _
  obtain ⟨namesa, hcomponentsa⟩ := h a ha
  obtain ⟨namesb, hcomponentsb⟩ := h b hb
  have hplacea := hplain.placeOf_of_resolve? htop
  have hplaceb := hplain.placeOf_of_resolve? hbelow
  rw [placeOf, hcomponentsa, List.foldl_append, foldl_move_names] at hplacea
  rw [placeOf, hcomponentsb, List.foldl_append, foldl_move_names, ← hplacea,
    List.append_assoc] at hplaceb
  rw [hcomponentsa, hcomponentsb, List.append_cancel_left hplaceb, List.map_append,
    List.append_assoc]

end Plain

/-- In a tree without links the class files are collected that are arguments or lie below one, and
an error is that of the first argument that is refused. The paths are strictly sorted, so no path is
there twice. A file is named twice exactly if two arguments that lead to it are spelled differently
on the way to where they meet. -/
theorem collectUnits_exact (hplain : fs.Plain) (args : List String) :
    (∀ error, fs.collectUnits args = .error error ↔
      args.findSome? fs.refusal? = some error) ∧
    ∀ files, fs.collectUnits args = .ok files →
      (files.Pairwise fun a b => Path.compare a b = .lt) ∧
      (∀ file ∈ files, (fs.resolve? file).isSome) ∧
      (∀ place, (∃ file ∈ files, fs.resolve? file = some place) ↔
        fs.IsUnitAt place ∧ ∃ arg ∈ args, ∃ top, fs.resolve? arg = some top ∧ top <+: place) ∧
      ((files.map fs.resolve?).Nodup ↔ fs.SpelledAlike args) := by
  rcases hplain.collectUnits_cases args with
    ⟨error, hrefused, herror⟩ | ⟨hnone, files, hok, hcollected⟩
  · rw [hrefused, herror]
    exact ⟨fun error' => by simp, fun files hfiles => by simp at hfiles⟩
  rw [hnone, hok]
  refine ⟨fun error => by simp, fun files' hfiles => ?_⟩
  obtain rfl : files = files' := by simpa using hfiles
  refine ⟨hcollected.sorted, ?_, fun place => hplain.exists_file_iff hcollected,
    hplain.nodup_iff_spelledAlike hcollected⟩
  intro file hfile
  obtain ⟨place, hfound⟩ := hcollected.found file hfile
  rw [hplain.resolve?_of_found hfound]
  rfl

/-- A class file two directories down. -/
def nestedUnit : FileSystem :=
  ⟨.dir [("a", .dir [("b", .dir [("w.json", .file none)])])], []⟩

theorem plain_nestedUnit : nestedUnit.Plain :=
  ⟨by simp only [nestedUnit, FileNode.Plain, FileNode.PlainEntries]; decide, by decide⟩

theorem resolve?_nestedUnit :
    nestedUnit.resolve? "." = some [] ∧ nestedUnit.resolve? "a" = some ["a"] ∧
      nestedUnit.resolve? "a/b" = some ["a", "b"] := by
  refine ⟨?_, ?_, ?_⟩ <;>
    exact plain_nestedUnit.resolve?_of_descend? (by decide) (by decide) (by decide)

/-- A directory and its own subdirectory overlap in a class file, which is named once. -/
theorem collectUnits_exact_of_nested :
    ∃ files, nestedUnit.collectUnits ["a", "a/b"] = .ok files ∧
      (∃ file ∈ files, nestedUnit.resolve? file = some ["a", "b", "w.json"]) ∧
      (files.map nestedUnit.resolve?).Nodup := by
  obtain ⟨herror, hok⟩ := collectUnits_exact plain_nestedUnit ["a", "a/b"]
  obtain ⟨-, ha, hb⟩ := resolve?_nestedUnit
  have haccepted : ["a", "a/b"].findSome? nestedUnit.refusal? = none := by
    rw [List.findSome?_cons, refusal?_of_isDirAt ha (by decide), List.findSome?_cons,
      refusal?_of_isDirAt hb (by decide)]
    rfl
  cases hfiles : nestedUnit.collectUnits ["a", "a/b"] with
  | error error =>
    rw [herror, haccepted] at hfiles
    contradiction
  | ok files =>
    obtain ⟨-, -, hnamed, hnodup⟩ := hok files hfiles
    refine ⟨files, rfl, ?_, ?_⟩
    · rw [hnamed]
      exact ⟨⟨["a", "b"], "w.json", none, rfl, by decide, rfl⟩, "a", List.mem_cons_self, ["a"],
        ha, ["b", "w.json"], rfl⟩
    · rw [hnodup]
      refine plain_nestedUnit.spelledAlike_of_common [] ?_
      intro arg harg
      simp only [List.mem_cons, List.not_mem_nil, or_false] at harg
      rcases harg with rfl | rfl
      · exact ⟨["a"], by decide⟩
      · exact ⟨["a", "b"], by decide⟩

theorem spelled_nestedUnit :
    "./a/b/w.json" = ["a", "b", "w.json"].foldl Path.join "." ∧
      "a/b/w.json" = ["b", "w.json"].foldl Path.join "a" := by
  simp (disch := decide) only [List.foldl_cons, List.foldl_nil, Path.join_of_open]
  decide

theorem unitsOf_nestedUnit :
    nestedUnit.unitsOf "." = .ok ["./a/b/w.json"] ∧
      nestedUnit.unitsOf "a" = .ok ["a/b/w.json"] := by
  obtain ⟨hcurrent, hbelow, -⟩ := resolve?_nestedUnit
  obtain ⟨hspelled, hspelledBelow⟩ := spelled_nestedUnit
  constructor
  · have hunit : isUnitFile (["a", "b", "w.json"].foldl Path.join ".") = true := by
      rw [← hspelled]
      decide
    rw [hspelled, unitsOf_of_dir hcurrent rfl]
    show (nestedUnit.walkDir 25 [] [] ".").elim _ _ = _
    rw [walkDir_of_only rfl, walkDir_of_only rfl, walkDir_of_file rfl hunit]
    rfl
  · have hunit : isUnitFile (["b", "w.json"].foldl Path.join "a") = true := by
      rw [← hspelledBelow]
      decide
    rw [hspelledBelow, unitsOf_of_dir hbelow rfl]
    show (nestedUnit.walkDir 25 [] ["a"] "a").elim _ _ = _
    rw [walkDir_of_only rfl, walkDir_of_file rfl hunit]
    rfl

/-- The current directory and a relative path to one below spell the same class file differently,
and it is named twice. -/
theorem collectUnits_twice :
    nestedUnit.Plain ∧
      nestedUnit.collectUnits [".", "a"] = .ok ["./a/b/w.json", "a/b/w.json"] ∧
      nestedUnit.resolve? "./a/b/w.json" = some ["a", "b", "w.json"] ∧
      nestedUnit.resolve? "a/b/w.json" = some ["a", "b", "w.json"] := by
  obtain ⟨hcurrent, hbelow, -⟩ := resolve?_nestedUnit
  obtain ⟨hspelled, hspelledBelow⟩ := spelled_nestedUnit
  refine ⟨plain_nestedUnit, ?_, ?_, ?_⟩
  · obtain ⟨hunits, hunitsBelow⟩ := unitsOf_nestedUnit
    have hfound : [".", "a"].mapM nestedUnit.unitsOf = .ok [["./a/b/w.json"], ["a/b/w.json"]] := by
      simp only [List.mapM_cons, hunits, hunitsBelow, List.mapM_nil]
      rfl
    have hsorted : (["./a/b/w.json", "a/b/w.json"].mergeSort fun a b =>
        (Path.compare a b).isLE) = ["./a/b/w.json", "a/b/w.json"] :=
      List.mergeSort_of_pairwise (by decide)
    unfold collectUnits
    rw [hfound]
    show Except.ok (dropRepeats (["./a/b/w.json", "a/b/w.json"].mergeSort _)) = _
    rw [hsorted]
    simp only [dropRepeats]
    decide
  · rw [hspelled]
    exact (plain_nestedUnit.resolve?_foldl_join hcurrent rfl).1
  · rw [hspelledBelow]
    exact (plain_nestedUnit.resolve?_foldl_join hbelow rfl).1

end FileSystem
end PoolLint

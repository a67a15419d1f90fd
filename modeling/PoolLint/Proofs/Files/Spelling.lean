import Mathlib.Data.List.DropRight
import Mathlib.Data.List.Infix
import PoolLint.Files.Path
import PoolLint.Proofs.Report.Order

/-!
# Paths and their components

What a path means is settled by its components, but paths are kept and taken apart as text. This
file says what the operations on texts do to the components: joining a name adds it at the end
(`components_join`), the parent of a path is the path without the last component
(`components_parent?`), and the ancestors are all of its beginnings, the longest first
(`components_ancestors`). Paths compare as equal exactly if they have the same components
(`compare_eq_iff`).
-/

namespace PoolLint

open Std

/-! ## The order of paths -/

/-- The text of a name. -/
def Component.text? : Component → Option String
  | .name text => some text
  | .root | .current | .parent => none

theorem Component.compare_eq (a b : Component) :
    a.compare b = (compareNat a.rank b.rank).then (compareOption compareText a.text? b.text?) := by
  cases a <;> cases b <;> rfl

instance : TransCmp Component.compare := by
  have h : TransCmp fun a b : Component =>
      (compareNat a.rank b.rank).then (compareOption compareText a.text? b.text?) :=
    transCmp_then (transCmp_on inferInstance Component.rank)
      (transCmp_on inferInstance Component.text?)
  have heq : Component.compare = fun a b : Component =>
      (compareNat a.rank b.rank).then (compareOption compareText a.text? b.text?) := by
    funext a b
    exact Component.compare_eq a b
  rw [heq]
  exact h

instance : LawfulEqCmp Component.compare where
  compare_self := by simp [Component.compare_eq]
  eq_of_compare {a b} h := by
    rw [Component.compare_eq] at h
    cases a <;> cases b <;> simp_all [Component.rank, Component.text?, compareOption]

namespace Path

theorem compareComponents_eq : compareComponents = List.compareLex Component.compare := by
  funext as bs
  induction as generalizing bs with
  | nil => cases bs <;> rfl
  | cons a as ih =>
    cases bs with
    | nil => rfl
    | cons b bs => rw [compareComponents, ih, List.compareLex_cons_cons]

instance : TransCmp compareComponents := by
  rw [compareComponents_eq]
  infer_instance

instance : LawfulEqCmp compareComponents := by
  rw [compareComponents_eq]
  infer_instance

instance : TransCmp Path.compare :=
  transCmp_on inferInstance components

theorem compare_eq_iff {a b : String} : compare a b = .eq ↔ components a = components b := by
  show compareComponents (components a) (components b) = .eq ↔ _
  exact LawfulEqCmp.compare_eq_iff_eq

/-! ## Segments -/

/-- What an entry of a directory can be called. -/
structure IsName (name : String) : Prop where
  ne_empty : name ≠ ""
  ne_dot : name ≠ "."
  ne_dots : name ≠ ".."
  slashless : '/' ∉ name.toList

instance (name : String) : Decidable (IsName name) :=
  decidable_of_iff (name ≠ "" ∧ name ≠ "." ∧ name ≠ ".." ∧ '/' ∉ name.toList)
    ⟨fun ⟨hempty, hdot, hdots, hslash⟩ => ⟨hempty, hdot, hdots, hslash⟩,
      fun h => ⟨h.ne_empty, h.ne_dot, h.ne_dots, h.slashless⟩⟩

variable {path name : String} {first : String} {rest segs : List String}

theorem segments_ne_nil (path : String) : segments path ≠ [] := by
  simp [segments, List.splitOn_ne_nil]

theorem segments_of_slashless (h : '/' ∉ path.toList) : segments path = [path] := by
  rw [segments, List.splitOn_eq_singleton h]
  simp

theorem segments_append_slash (a b : String) :
    segments (a ++ "/" ++ b) = segments a ++ segments b := by
  have htext : (a ++ "/" ++ b).toList = a.toList ++ '/' :: b.toList := by simp
  rw [segments, htext, List.splitOn_append_cons_self, List.map_append]
  rfl

/-- No segment has a slash in it. -/
theorem slashless_of_mem_segments {segment : String} (h : segment ∈ segments path) :
    '/' ∉ segment.toList := by
  have hparts : ∀ (n : Nat) (text : List Char), text.length ≤ n →
      ∀ part ∈ text.splitOn '/', '/' ∉ part := by
    intro n
    induction n with
    | zero =>
      intro text hlength part hpart
      have hnil : text = [] := List.eq_nil_of_length_eq_zero (by omega)
      simp_all
    | succ n ih =>
      intro text hlength part hpart
      by_cases hslash : '/' ∈ text
      · obtain ⟨front, back, htext, hfront⟩ := List.eq_append_cons_of_mem hslash
        rw [htext, List.splitOn_append_cons_self_of_not_mem hfront, List.mem_cons] at hpart
        have hback : back.length ≤ n := by
          rw [htext, List.length_append, List.length_cons] at hlength
          omega
        rcases hpart with rfl | hpart
        · exact hfront
        · exact ih back hback part hpart
      · rw [List.splitOn_eq_singleton hslash, List.mem_singleton] at hpart
        rwa [hpart]
  obtain ⟨part, hpart, rfl⟩ := List.mem_map.1 h
  rw [String.toList_ofList]
  exact hparts _ _ le_rfl part hpart

/-- In an absolute path nothing stands before the first slash. -/
theorem startsWith_slash_iff :
    path.startsWith "/" = true ↔ path ≠ "" ∧ ∃ rest, segments path = "" :: rest := by
  rw [String.startsWith_string_iff]
  by_cases hslash : '/' ∈ path.toList
  · obtain ⟨front, back, htext, hfront⟩ := List.eq_append_cons_of_mem hslash
    have hpath : path ≠ "" := by
      intro hempty
      simp [hempty] at htext
    rw [segments, htext, List.splitOn_append_cons_self_of_not_mem hfront]
    cases front with
    | nil => simp [hpath]
    | cons c front =>
      have hc : '/' ≠ c := fun hc => hfront (hc ▸ List.mem_cons_self)
      simp [hc]
  · have hnone : ¬"/".toList <+: path.toList := fun h => hslash (h.subset (by simp))
    rw [iff_false_left hnone, segments_of_slashless hslash]
    simp

/-- Segments are got back from their text; a single empty one stands for the root, which has two. -/
theorem segments_ofSegments (hne : segs ≠ []) (hslash : ∀ s ∈ segs, '/' ∉ s.toList)
    (hroot : segs ≠ [""]) : segments (ofSegments segs) = segs := by
  have htext : ofSegments segs = "/".intercalate segs := by
    unfold ofSegments
    split
    · contradiction
    · rfl
  have hparts : ∀ part ∈ segs.map String.toList, '/' ∉ part := by
    intro part hpart
    obtain ⟨s, hs, rfl⟩ := List.mem_map.1 hpart
    exact hslash s hs
  rw [segments, htext, String.toList_intercalate]
  show (List.splitOn '/' (['/'].intercalate (segs.map String.toList))).map String.ofList = segs
  rw [List.splitOn_intercalate '/' hparts (by simpa using hne), List.map_map]
  have hid : String.ofList ∘ String.toList = id := by
    funext s
    simp
  rw [hid, List.map_id]

/-! ## Components -/

/-- The components that segments stand for, if they are not those of the empty path. -/
def componentsOf : List String → List Component
  | [] => []
  | first :: rest =>
    (if first = "" then [.root] else if first = "." then [.current]
      else (innerComponent? first).toList) ++ rest.filterMap innerComponent?

@[simp]
theorem components_empty : components "" = [] := by
  decide

theorem components_eq (h : path ≠ "") : components path = componentsOf (segments path) := by
  unfold components
  cases hsegs : segments path with
  | nil => rfl
  | cons first rest =>
    have hempty : path.isEmpty = false := by simpa using h
    simp only [componentsOf]
    congr 1
    unfold firstComponent?
    split
    · simp [hempty]
    · decide
    · rename_i hne hne'
      rw [if_neg hne, if_neg hne']

theorem componentsOf_append (hne : segs ≠ []) (more : List String) :
    componentsOf (segs ++ more) = componentsOf segs ++ more.filterMap innerComponent? := by
  cases segs with
  | nil => contradiction
  | cons first rest => simp [componentsOf]

theorem IsName.innerComponent? (h : IsName name) :
    Path.innerComponent? name = some (.name name) := by
  unfold Path.innerComponent?
  split
  · exact absurd rfl h.ne_empty
  · exact absurd rfl h.ne_dot
  · exact absurd rfl h.ne_dots
  · rfl

theorem innerComponent?_ne_root : innerComponent? name ≠ some .root := by
  unfold innerComponent?
  split <;> simp

theorem innerComponent?_ne_current : innerComponent? name ≠ some .current := by
  unfold innerComponent?
  split <;> simp

theorem innerComponent?_eq_none : innerComponent? name = none ↔ name = "" ∨ name = "." := by
  unfold innerComponent?
  split <;> simp_all

theorem componentsOf_singleton (h : first ≠ "") :
    ∃ c, componentsOf [first] = [c] ∧ c ≠ .root := by
  by_cases hdot : first = "."
  · exact ⟨.current, by simp [componentsOf, hdot], by simp⟩
  by_cases hdots : first = ".."
  · exact ⟨.parent, by simp [componentsOf, hdots, innerComponent?], by simp⟩
  · exact ⟨.name first, by simp [componentsOf, h, hdot, innerComponent?], by simp⟩

/-- After the first segment there are only names and parents. -/
theorem eq_name_of_mem_filterMap {c : Component} (h : c ∈ segs.filterMap innerComponent?)
    (hparent : c ≠ .parent) : ∃ name, c = .name name := by
  obtain ⟨segment, -, hc⟩ := List.mem_filterMap.1 h
  cases c with
  | root => exact absurd hc innerComponent?_ne_root
  | current => exact absurd hc innerComponent?_ne_current
  | parent => contradiction
  | name text => exact ⟨text, rfl⟩

theorem exists_names {cs : List Component} (h : ∀ c ∈ cs, ∃ name, c = .name name) :
    ∃ names : List String, cs = names.map Component.name := by
  induction cs with
  | nil => exact ⟨[], rfl⟩
  | cons c cs ih =>
    obtain ⟨name, rfl⟩ := h c List.mem_cons_self
    obtain ⟨names, rfl⟩ := ih fun d hd => h d (List.mem_cons_of_mem _ hd)
    exact ⟨name :: names, rfl⟩

/-- An absolute path without parents is the root and names. -/
theorem components_of_absolute (h : path.startsWith "/") (hparent : .parent ∉ components path) :
    ∃ names : List String, components path = .root :: names.map Component.name := by
  obtain ⟨hpath, rest, hsegs⟩ := startsWith_slash_iff.1 h
  have hcomponents : components path = .root :: rest.filterMap innerComponent? := by
    rw [components_eq hpath, hsegs]
    rfl
  rw [hcomponents] at hparent ⊢
  obtain ⟨names, hnames⟩ := exists_names fun c hc =>
    eq_name_of_mem_filterMap hc (fun hc' => hparent (List.mem_cons_of_mem _ (hc' ▸ hc)))
  exact ⟨names, by rw [hnames]⟩

/-- A relative path without parents is some names, perhaps after a dot. -/
theorem components_of_relative (h : ¬path.startsWith "/")
    (hparent : .parent ∉ components path) :
    ∃ names : List String, components path = names.map Component.name ∨
      components path = .current :: names.map Component.name := by
  by_cases hpath : path = ""
  · exact ⟨[], Or.inl (by rw [hpath]; rfl)⟩
  obtain ⟨first, rest, hsegs⟩ := List.exists_cons_of_ne_nil (segments_ne_nil path)
  have hempty : first ≠ "" := by
    intro hempty
    exact h (startsWith_slash_iff.2 ⟨hpath, rest, hempty ▸ hsegs⟩)
  rw [components_eq hpath, hsegs, componentsOf, if_neg hempty] at hparent ⊢
  by_cases hdot : first = "."
  · rw [if_pos hdot] at hparent ⊢
    obtain ⟨names, hnames⟩ := exists_names fun c hc =>
      eq_name_of_mem_filterMap hc (fun hc' => hparent (List.mem_append_right _ (hc' ▸ hc)))
    exact ⟨names, Or.inr (by rw [hnames]; rfl)⟩
  · have hall : (innerComponent? first).toList ++ rest.filterMap innerComponent? =
        (first :: rest).filterMap innerComponent? := by
      rw [List.filterMap_cons]
      cases innerComponent? first <;> rfl
    rw [if_neg hdot, hall] at hparent ⊢
    obtain ⟨names, hnames⟩ := exists_names fun c hc =>
      eq_name_of_mem_filterMap hc (fun hc' => hparent (hc' ▸ hc))
    exact ⟨names, Or.inl hnames⟩

/-- Only an absolute path has the root for a component, as the first one. -/
theorem startsWith_iff_head? : path.startsWith "/" ↔ (components path).head? = some .root := by
  by_cases hpath : path = ""
  · rw [hpath]
    decide
  obtain ⟨first, rest, hsegs⟩ := List.exists_cons_of_ne_nil (segments_ne_nil path)
  rw [startsWith_slash_iff, components_eq hpath, hsegs]
  by_cases hempty : first = ""
  · simp [hpath, hempty, componentsOf]
  · obtain ⟨c, hc, hroot⟩ := componentsOf_singleton hempty
    rw [← List.singleton_append, componentsOf_append (by simp), hc]
    simp [hempty, hroot]

theorem length_componentsOf_le (segs : List String) :
    (componentsOf segs).length ≤ segs.length := by
  cases segs with
  | nil => rfl
  | cons first rest =>
    have hfirst : (if first = "" then [Component.root] else if first = "." then [.current]
        else (innerComponent? first).toList).length ≤ 1 := by
      split
      · simp
      · split
        · simp
        · cases innerComponent? first <;> simp
    have hrest := List.length_filterMap_le innerComponent? rest
    rw [componentsOf, List.length_append, List.length_cons]
    omega

theorem length_components_le (path : String) :
    (components path).length ≤ (segments path).length := by
  by_cases h : path = ""
  · simp [h]
  · rw [components_eq h]
    exact length_componentsOf_le _

/-! ## Joining -/

theorem IsName.not_startsWith (h : IsName name) : name.startsWith "/" = false := by
  rw [Bool.eq_false_iff]
  intro hstarts
  have hbegins := String.startsWith_string_iff.1 hstarts
  exact h.slashless (hbegins.subset (by simp))

theorem startsWith_append (hpath : path ≠ "") (more : String) :
    (path ++ more).startsWith "/" = path.startsWith "/" := by
  rw [Bool.eq_iff_iff, String.startsWith_string_iff, String.startsWith_string_iff,
    String.toList_append]
  cases htext : path.toList with
  | nil => simp_all
  | cons c text => simp

theorem exists_of_endsWith (h : path.endsWith "/" = true) : ∃ front, path = front ++ "/" := by
  rw [String.endsWith_eq_endsWith_toSlice, String.Slice.endsWith_string_iff] at h
  obtain ⟨front, hfront⟩ := h
  refine ⟨String.ofList front, ?_⟩
  apply String.toList_injective
  simpa using hfront.symm

theorem join_empty (hname : IsName name) : join "" name = name := by
  unfold join
  rw [hname.not_startsWith]
  simp

theorem join_of_ne_empty (hname : IsName name) (hpath : path ≠ "") :
    join path name = path ++ (if path.endsWith "/" then name else "/" ++ name) := by
  have hempty : path.isEmpty = false := by simpa using hpath
  unfold join
  rw [hname.not_startsWith, hempty]
  cases path.endsWith "/"
  · simp [String.append_assoc]
  · rfl

/-- A slash is put between a name and a path that does not end in one. -/
theorem join_of_open (hname : IsName name) (hpath : path ≠ "") (hopen : ¬ ['/'] <:+ path.toList) :
    join path name = path ++ "/" ++ name := by
  have hends : ¬ path.endsWith "/" = true := by
    intro h
    obtain ⟨front, rfl⟩ := exists_of_endsWith h
    exact hopen ⟨front.toList, by simp⟩
  rw [join_of_ne_empty hname hpath, if_neg hends, String.append_assoc]

/-- A name that is joined to a path becomes its last segment, in place of an empty one. -/
theorem segments_join (hname : IsName name) (hpath : path ≠ "") :
    ∃ front, front ≠ [] ∧ segments (join path name) = front ++ [name] ∧
      (segments path = front ∨ segments path = front ++ [""]) := by
  have hlast : ∀ {last : String}, '/' ∉ last.toList → ∀ a : String,
      segments (a ++ "/" ++ last) = segments a ++ [last] := by
    intro last h a
    rw [segments_append_slash, segments_of_slashless h]
  rw [join_of_ne_empty hname hpath]
  by_cases hends : path.endsWith "/" = true
  · obtain ⟨front, hfront⟩ := exists_of_endsWith hends
    refine ⟨segments front, segments_ne_nil front, ?_, Or.inr ?_⟩
    · rw [if_pos hends, hfront, hlast hname.slashless]
    · have hempty : '/' ∉ "".toList := by simp
      rw [hfront, ← hlast hempty front, String.append_empty]
  · refine ⟨segments path, segments_ne_nil path, ?_, Or.inl rfl⟩
    rw [if_neg hends, ← String.append_assoc, hlast hname.slashless]

/-- A name that is joined to a path becomes its last component. -/
theorem components_join (path : String) (hname : IsName name) :
    components (join path name) = components path ++ [.name name] := by
  by_cases hpath : path = ""
  · rw [hpath, join_empty hname, components_eq hname.ne_empty,
      segments_of_slashless hname.slashless]
    simp [componentsOf, hname.ne_empty, hname.ne_dot, hname.innerComponent?]
  have hjoin : join path name ≠ "" := by
    rw [join_of_ne_empty hname hpath]
    simp [hpath]
  obtain ⟨front, hfront, hsegs, hbefore⟩ := segments_join hname hpath
  have hbase : componentsOf (segments path) = componentsOf front := by
    rcases hbefore with h | h
    · rw [h]
    · rw [h, componentsOf_append hfront]
      exact List.append_nil _
  rw [components_eq hjoin, hsegs, componentsOf_append hfront, components_eq hpath, hbase]
  simp [hname.innerComponent?]

/-! ## Ancestors -/

/-- The beginnings of some components, the longest first; those of an absolute path all start with
the root. -/
def lineage : List Component → List (List Component)
  | .root :: cs => cs.inits.reverse.map (.root :: ·)
  | cs => cs.inits.reverse

theorem lineage_concat {cs : List Component} {c : Component} (h : cs = [] → c ≠ .root) :
    lineage (cs ++ [c]) = (cs ++ [c]) :: lineage cs := by
  have hinits : ∀ ds : List Component,
      (ds ++ [c]).inits.reverse = (ds ++ [c]) :: ds.inits.reverse := by
    intro ds
    simp [List.inits_append]
  cases cs with
  | nil =>
    cases c with
    | root => exact absurd rfl (h rfl)
    | _ => rfl
  | cons d ds =>
    cases d with
    | root => simp [lineage, List.inits_append]
    | _ => exact hinits (_ :: ds)

theorem lineage_of_head?_ne {cs : List Component} (h : cs.head? ≠ some .root) :
    lineage cs = cs.inits.reverse := by
  unfold lineage
  split
  · simp at h
  · rfl

theorem prefix_of_mem_lineage {cs ds : List Component} (h : ds ∈ lineage cs) : ds <+: cs := by
  unfold lineage at h
  split at h
  · rename_i cs
    obtain ⟨front, hfront, rfl⟩ := List.mem_map.1 h
    rw [List.mem_reverse, List.mem_inits] at hfront
    exact (List.prefix_cons_inj _).2 hfront
  · rwa [List.mem_reverse, List.mem_inits] at h

/-- Segments that are no components make none. -/
theorem componentsOf_trimSegments (segs : List String) :
    componentsOf (trimSegments segs) = componentsOf segs := by
  cases segs with
  | nil => rfl
  | cons first rest =>
    show _ ++ (rest.rdropWhile fun s => (innerComponent? s).isNone).filterMap innerComponent? =
      _ ++ rest.filterMap innerComponent?
    congr 1
    induction rest using List.reverseRecOn with
    | nil => rfl
    | append_singleton rest s ih =>
      rw [List.rdropWhile_concat]
      split
      · rename_i hnone
        rw [ih, List.filterMap_append]
        simp [Option.isNone_iff_eq_none.1 hnone]
      · rfl

/-- Either only the first segment is left, or the last one is a component. -/
theorem trimSegments_cases (first : String) (rest : List String) :
    trimSegments (first :: rest) = [first] ∨
      ∃ front last c, trimSegments (first :: rest) = first :: (front ++ [last]) ∧
        innerComponent? last = some c := by
  show first :: rest.rdropWhile (fun s => (innerComponent? s).isNone) = [first] ∨ _
  by_cases hnil : rest.rdropWhile (fun s => (innerComponent? s).isNone) = []
  · exact Or.inl (by rw [hnil])
  · right
    have hlast := List.rdropWhile_last_not _ _ hnil
    rw [Bool.not_eq_true, Option.isNone_eq_false_iff, Option.isSome_iff_exists] at hlast
    obtain ⟨c, hc⟩ := hlast
    refine ⟨(rest.rdropWhile fun s => (innerComponent? s).isNone).dropLast, _, c, ?_, hc⟩
    rw [List.dropLast_append_getLast]
    rfl

theorem slashless_of_mem_trimSegments {segment : String}
    (hslash : ∀ s ∈ segs, '/' ∉ s.toList) (h : segment ∈ trimSegments segs) :
    '/' ∉ segment.toList := by
  cases segs with
  | nil => exact absurd h List.not_mem_nil
  | cons first rest =>
    apply hslash
    rcases List.mem_cons.1 h with rfl | h
    · exact List.mem_cons_self
    · exact List.mem_cons_of_mem _ ((List.rdropWhile_prefix _ rest).subset h)

theorem components_ofSegments (hslash : ∀ s ∈ segs, '/' ∉ s.toList) (hne : segs ≠ []) :
    components (ofSegments segs) = componentsOf segs := by
  by_cases hroot : segs = [""]
  · rw [hroot]
    decide
  have hsegs := segments_ofSegments hne hslash hroot
  have hpath : ofSegments segs ≠ "" := by
    intro hempty
    rw [hempty] at hsegs
    exact hroot (hsegs.symm.trans (segments_of_slashless (by simp)))
  rw [components_eq hpath, hsegs]

theorem parent?_of_trimSegments {trimmed : List String}
    (htrim : trimSegments (segments path) = trimmed) (hne : trimmed ≠ []) (hroot : trimmed ≠ [""]) :
    parent? path = some (ofSegments (trimSegments trimmed.dropLast)) := by
  unfold parent?
  rw [htrim]
  split
  · contradiction
  · contradiction
  · rfl

/-- Without its last segment a path keeps the components of the others. -/
theorem parent?_of_concat {front : List String} {last : String}
    (hsegs : segments path = first :: rest)
    (htrim : trimSegments (first :: rest) = first :: (front ++ [last])) :
    ∃ above, parent? path = some above ∧ components above = componentsOf (first :: front) := by
  have hslash : ∀ s ∈ first :: (front ++ [last]), '/' ∉ s.toList := by
    intro s hs
    rw [← htrim] at hs
    exact slashless_of_mem_trimSegments (fun s hs => slashless_of_mem_segments (hsegs ▸ hs)) hs
  have hfront : ∀ s ∈ trimSegments (first :: front), '/' ∉ s.toList := by
    intro s
    apply slashless_of_mem_trimSegments
    intro s hs
    apply hslash
    rw [← List.cons_append]
    exact List.mem_append_left _ hs
  refine ⟨ofSegments (trimSegments (first :: front)), ?_, ?_⟩
  · rw [parent?_of_trimSegments (hsegs ▸ htrim) (by simp) (by simp), ← List.cons_append,
      List.dropLast_concat]
  · rw [components_ofSegments hfront (by simp [trimSegments]), componentsOf_trimSegments]

/-- The path above has all components but the last one. Nothing is above the root and the empty
path. -/
theorem parent?_cases (path : String) :
    (parent? path = none ∧ (components path = [] ∨ components path = [.root])) ∨
      ∃ above last, parent? path = some above ∧ components path = components above ++ [last] ∧
        (components above = [] → last ≠ .root) := by
  by_cases hpath : path = ""
  · rw [hpath]
    exact Or.inl ⟨rfl, Or.inl rfl⟩
  obtain ⟨first, rest, hsegs⟩ := List.exists_cons_of_ne_nil (segments_ne_nil path)
  have hcomponents : components path = componentsOf (trimSegments (first :: rest)) := by
    rw [components_eq hpath, hsegs, componentsOf_trimSegments]
  rcases trimSegments_cases first rest with htrim | ⟨front, last, c, htrim, hlast⟩
  · by_cases hempty : first = ""
    · left
      rw [hcomponents, htrim, parent?, hsegs, htrim, hempty]
      exact ⟨rfl, Or.inr rfl⟩
    · obtain ⟨c, hc, hroot⟩ := componentsOf_singleton hempty
      refine Or.inr ⟨"", c, ?_, ?_, fun _ => hroot⟩
      · rw [parent?_of_trimSegments (hsegs ▸ htrim) (by simp) (by simpa using hempty)]
        rfl
      · rw [hcomponents, htrim, hc]
        rfl
  · obtain ⟨above, habove, hfront⟩ := parent?_of_concat hsegs htrim
    refine Or.inr ⟨above, c, habove, ?_, ?_⟩
    · rw [hcomponents, htrim, ← List.cons_append, componentsOf_append (by simp), hfront]
      simp [hlast]
    · intro _ hroot
      rw [hroot] at hlast
      exact innerComponent?_ne_root hlast

/-- The ancestors of a path are all of its beginnings. -/
theorem components_ancestors (path : String) :
    (ancestors path).map components = lineage (components path) := by
  have h : ∀ (fuel : Nat) (path : String), (components path).length ≤ fuel →
      (ancestorsFrom fuel path).map components = lineage (components path) := by
    intro fuel
    induction fuel with
    | zero =>
      intro path hfuel
      have hnil : components path = [] := List.eq_nil_of_length_eq_zero (by omega)
      simp [ancestorsFrom, hnil, lineage]
    | succ fuel ih =>
      intro path hfuel
      rcases parent?_cases path with ⟨hparent, htop⟩ | ⟨above, last, hparent, hpath, hroot⟩
      · have hstop : ancestorsFrom (fuel + 1) path = [path] := by
          unfold ancestorsFrom
          rw [hparent]
        rcases htop with htop | htop <;> simp [hstop, htop, lineage]
      · have hstep : ancestorsFrom (fuel + 1) path = path :: ancestorsFrom fuel above := by
          rw [ancestorsFrom]
          simp only [hparent]
        have hlength : (components above).length ≤ fuel := by
          rw [hpath, List.length_append] at hfuel
          simpa using hfuel
        rw [hstep, List.map_cons, ih above hlength, hpath, lineage_concat hroot]
  exact h _ path (length_components_le path)

end Path
end PoolLint

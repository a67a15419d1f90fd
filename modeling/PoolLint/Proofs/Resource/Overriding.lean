import Mathlib.Data.List.Induction
import PoolLint.Proofs.Resource.Names

/-!
# Kinds that take the place of others

Kinds are added to a table one after the other, and each takes the place of the kind of its name if
there is one. In the end the table holds the last kind of every name, the names that were there
before in their places and the new ones in the order in which they first came up
(`names_foldl_insert`, `lastNamed?_of_mem_foldl_insert`). Removing kinds afterwards leaves the
others where they are, which describes the tables that come from settings (`names_configured`,
`kinds_configured`).
-/

namespace PoolLint
namespace ResourceTable

/-- The last of the kinds that has the name. -/
def lastNamed? (kinds : List ResourceKind) (name : String) : Option ResourceKind :=
  (kinds.filter (·.name == name)).getLast?

/-- Names that are not known yet, each where it first occurs. -/
def newNames (known added : List String) : List String :=
  (added.filter fun name => !known.contains name).eraseDups

theorem mem_newNames {known added : List String} {name : String} :
    name ∈ newNames known added ↔ name ∈ added ∧ name ∉ known := by
  unfold newNames
  rw [List.mem_eraseDups, List.mem_filter, Bool.not_eq_true', ← Bool.not_eq_true,
    List.contains_iff_mem]

section NewNames

variable {known added : List String} {name : String}

theorem newNames_snoc (known added : List String) (name : String) :
    newNames known (added ++ [name]) = newNames known added ++
      (([name].filter fun name => !known.contains name).removeAll
        (added.filter fun name => !known.contains name)).eraseDups := by
  rw [newNames, List.filter_append, List.eraseDups_append]
  rfl

/-- A name that has come up before adds nothing. -/
theorem newNames_snoc_of_mem (h : name ∈ known ++ newNames known added) :
    newNames known (added ++ [name]) = newNames known added := by
  rw [List.mem_append, mem_newNames] at h
  rw [newNames_snoc]
  by_cases hknown : name ∈ known
  · simp [hknown]
  · have hadded : name ∈ added := (h.resolve_left hknown).1
    simp [List.removeAll, hknown, hadded]

/-- A name that has not is added at the end. -/
theorem newNames_snoc_of_not_mem (h : name ∉ known ++ newNames known added) :
    newNames known (added ++ [name]) = newNames known added ++ [name] := by
  rw [List.mem_append, mem_newNames, not_or] at h
  obtain ⟨hknown, hadded⟩ := h
  have hadded' : name ∉ added := fun hmem => hadded ⟨hmem, hknown⟩
  rw [newNames_snoc]
  simp [List.removeAll, hknown, hadded']
  rfl

end NewNames

/-! ## The last kind of a name -/

section LastNamed

variable {kinds : List ResourceKind} {kind : ResourceKind} {name : String}

/-- Later kinds take precedence. -/
theorem lastNamed?_append (kinds later : List ResourceKind) (name : String) :
    lastNamed? (kinds ++ later) name = (lastNamed? later name).or (lastNamed? kinds name) := by
  unfold lastNamed?
  rw [List.filter_append, List.getLast?_append]

theorem lastNamed?_snoc (kinds : List ResourceKind) (kind : ResourceKind) (name : String) :
    lastNamed? (kinds ++ [kind]) name =
      if kind.name = name then some kind else lastNamed? kinds name := by
  rw [lastNamed?_append, lastNamed?, List.filter_singleton]
  by_cases hname : kind.name = name
  · rw [if_pos hname, beq_iff_eq.2 hname]
    rfl
  · rw [if_neg hname, beq_eq_false_iff_ne.2 hname]
    rfl

theorem mem_of_lastNamed? (h : lastNamed? kinds name = some kind) :
    kind ∈ kinds ∧ kind.name = name := by
  obtain ⟨hmem, hname⟩ := List.mem_filter.1 (List.mem_of_getLast? h)
  exact ⟨hmem, beq_iff_eq.1 hname⟩

/-- Where no name occurs twice, every kind is the last of its name. -/
theorem lastNamed?_of_nodup (h : (kinds.map (·.name)).Nodup) (hmem : kind ∈ kinds) :
    lastNamed? kinds kind.name = some kind := by
  have hnamed : kind ∈ kinds.filter (·.name == kind.name) :=
    List.mem_filter.2 ⟨hmem, beq_self_eq_true _⟩
  cases hlast : lastNamed? kinds kind.name with
  | none => exact absurd hnamed (List.getLast?_eq_none_iff.1 hlast ▸ List.not_mem_nil)
  | some other =>
    obtain ⟨hother, hname⟩ := mem_of_lastNamed? hlast
    rw [List.inj_on_of_nodup_map h hother hmem hname]

end LastNamed

/-! ## Adding kinds -/

section Insert

variable {t : ResourceTable} {kind other : ResourceKind}

/-- Adding a kind leaves the kinds of other names. -/
theorem mem_insert (h : t.names.Nodup) : other ∈ (t.insert kind).kinds ↔
    other = kind ∨ other ∈ t.kinds ∧ other.name ≠ kind.name := by
  unfold insert find?
  cases hfind : t.kinds.findIdx? (·.name == kind.name) with
  | none =>
    have hother : ∀ k ∈ t.kinds, k.name ≠ kind.name := by
      intro k hk
      exact beq_eq_false_iff_ne.1 (List.findIdx?_eq_none_iff.1 hfind k hk)
    rw [List.mem_append, List.mem_singleton, or_comm,
      and_iff_left_of_imp (hother other)]
  | some id =>
    obtain ⟨hid, hname, -⟩ := List.findIdx?_eq_some_iff_getElem.1 hfind
    have hold : t.kinds[id].name = kind.name := eq_of_beq hname
    have hsplit : t.kinds = t.kinds.take id ++ t.kinds[id] :: t.kinds.drop (id + 1) := by
      rw [List.getElem_cons_drop, List.take_append_drop]
    have hset : t.kinds.set id kind = t.kinds.take id ++ kind :: t.kinds.drop (id + 1) := by
      rw [List.set_eq_take_append_cons_drop, if_pos hid]
    -- the kind that is replaced is the only one of the name
    have hother : ∀ k ∈ t.kinds.take id ++ t.kinds.drop (id + 1), k.name ≠ kind.name := by
      have hnodup : ((t.kinds.take id ++ t.kinds[id] :: t.kinds.drop (id + 1)).map
          (·.name)).Nodup := by
        rw [← hsplit]
        exact h
      rw [List.map_append, List.map_cons, List.nodup_middle, ← List.map_append, hold] at hnodup
      intro k hk hsame
      exact (List.nodup_cons.1 hnodup).1 (List.mem_map.2 ⟨k, hk, hsame⟩)
    show other ∈ t.kinds.set id kind ↔ _
    rw [hset, List.perm_middle.mem_iff, List.mem_cons]
    refine or_congr_right ⟨?_, ?_⟩
    · intro hmem
      refine ⟨?_, hother other hmem⟩
      rw [hsplit, List.perm_middle.mem_iff]
      exact List.mem_cons_of_mem _ hmem
    · rintro ⟨hmem, hne⟩
      rw [hsplit, List.perm_middle.mem_iff] at hmem
      rcases List.mem_cons.1 hmem with rfl | hmem
      · exact absurd hold hne
      · exact hmem

/-- New names are added at the end, in the order in which they first come up. -/
theorem names_foldl_insert (t : ResourceTable) (extra : List ResourceKind) :
    (extra.foldl insert t).names = t.names ++ newNames t.names (extra.map (·.name)) := by
  induction extra using List.reverseRecOn with
  | nil => exact (List.append_nil _).symm
  | append_singleton extra kind ih =>
    rw [List.foldl_append, List.foldl_cons, List.foldl_nil, names_insert, ih, List.map_append,
      List.map_singleton]
    by_cases hold : kind.name ∈ t.names ++ newNames t.names (extra.map (·.name))
    · rw [if_pos hold, newNames_snoc_of_mem hold]
    · rw [if_neg hold, newNames_snoc_of_not_mem hold, List.append_assoc]

/-- The table holds the last kind of every name. -/
theorem lastNamed?_of_mem_foldl_insert (h : t.names.Nodup) (extra : List ResourceKind)
    (hmem : kind ∈ (extra.foldl insert t).kinds) :
    lastNamed? (t.kinds ++ extra) kind.name = some kind := by
  induction extra using List.reverseRecOn with
  | nil =>
    rw [List.append_nil]
    exact lastNamed?_of_nodup h hmem
  | append_singleton extra added ih =>
    rw [List.foldl_append, List.foldl_cons, List.foldl_nil] at hmem
    rw [← List.append_assoc, lastNamed?_snoc]
    rcases (mem_insert (nodup_names_foldl_insert h extra)).1 hmem with rfl | ⟨hold, hname⟩
    · rw [if_pos rfl]
    · rw [if_neg (Ne.symm hname)]
      exact ih hold

end Insert

/-! ## Tables that come from settings -/

theorem names_builtin_nodup : builtin.names.Nodup := by decide

/-- The names in a table that comes from settings: those that are built in before the others,
without the disabled ones. -/
theorem names_configured (disabled : List String) (extra : List ResourceKind) :
    (configured disabled extra).names =
      (builtin.names ++ newNames builtin.names (extra.map (·.name))).filter
        fun name => !disabled.contains name := by
  rw [← names_foldl_insert]
  unfold configured remove names
  rw [List.filter_map]
  rfl

/-- A table that comes from settings holds the last kind of each of its names. -/
theorem kinds_configured (disabled : List String) (extra : List ResourceKind) :
    (configured disabled extra).kinds =
      (configured disabled extra).names.filterMap (lastNamed? (builtin.kinds ++ extra)) := by
  unfold names
  rw [List.filterMap_map]
  have hlast : ∀ kind ∈ (configured disabled extra).kinds,
      (lastNamed? (builtin.kinds ++ extra) ∘ (·.name)) kind = some kind := by
    intro kind hmem
    exact lastNamed?_of_mem_foldl_insert names_builtin_nodup extra (List.mem_of_mem_filter hmem)
  rw [List.filterMap_congr hlast, List.filterMap_some]

end ResourceTable
end PoolLint

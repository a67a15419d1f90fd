import Mathlib.Data.List.Nodup
import PoolLint.Resource.Table

/-!
# Names in a table

Flags are kept by the name of a kind and found by its position, which agree only as long as no
name occurs twice. Tables that come from settings are of this sort, since a kind with a known
name takes the place of the old one.
-/

namespace PoolLint
namespace ResourceTable

/-- A kind with a new name is added at the end; any other takes the place of its namesake. -/
theorem names_insert (t : ResourceTable) (kind : ResourceKind) :
    (t.insert kind).names = if kind.name ∈ t.names then t.names else t.names ++ [kind.name] := by
  unfold insert find? names
  cases hfind : t.kinds.findIdx? (·.name == kind.name) with
  | none =>
    have hnew : kind.name ∉ t.kinds.map (·.name) := by
      intro hmem
      obtain ⟨old, hold, hname⟩ := List.mem_map.1 hmem
      have hne := List.findIdx?_eq_none_iff.1 hfind old hold
      rw [hname, beq_self_eq_true] at hne
      cases hne
    rw [if_neg hnew]
    exact List.map_append
  | some id =>
    obtain ⟨hid, hname, -⟩ := List.findIdx?_eq_some_iff_getElem.1 hfind
    have hold : t.kinds[id].name = kind.name := eq_of_beq hname
    rw [if_pos (List.mem_map.2 ⟨_, List.getElem_mem hid, hold⟩)]
    have hbound : id < (t.kinds.map (·.name)).length := by rwa [List.length_map]
    have hsame : (t.kinds.map (·.name))[id] = kind.name := by rw [List.getElem_map, hold]
    show (t.kinds.set id kind).map (·.name) = t.kinds.map (·.name)
    rw [List.map_set, ← hsame, List.set_getElem_self]

theorem nodup_names_insert {t : ResourceTable} (h : t.names.Nodup) (kind : ResourceKind) :
    (t.insert kind).names.Nodup := by
  rw [names_insert]
  split_ifs with hmem
  · exact h
  · refine List.nodup_append.2 ⟨h, List.nodup_singleton _, ?_⟩
    intro a ha b hb
    rw [List.mem_singleton.1 hb]
    exact ne_of_mem_of_not_mem ha hmem

theorem nodup_names_remove {t : ResourceTable} (h : t.names.Nodup) (disabled : List String) :
    (t.remove disabled).names.Nodup :=
  h.sublist (List.filter_sublist.map _)

theorem nodup_names_foldl_insert {t : ResourceTable} (h : t.names.Nodup)
    (kinds : List ResourceKind) : (kinds.foldl insert t).names.Nodup := by
  induction kinds generalizing t with
  | nil => exact h
  | cons kind kinds ih => exact ih (nodup_names_insert h kind)

/-- No name occurs twice in a table that comes from settings. -/
theorem nodup_names_configured (disabled : List String) (extra : List ResourceKind) :
    (configured disabled extra).names.Nodup := by
  have hbuiltin : builtin.names.Nodup := by decide
  exact nodup_names_remove (nodup_names_foldl_insert hbuiltin extra) disabled

/-- Where no name occurs twice, the name of a kind tells its position. -/
theorem eq_of_name_eq {t : ResourceTable} (h : t.names.Nodup) {id id' : Nat}
    {kind kind' : ResourceKind} (hkind : t.kind? id = some kind)
    (hkind' : t.kind? id' = some kind') (hname : kind.name = kind'.name) : id = id' := by
  have hnamed : ∀ {k : Nat} {kind : ResourceKind}, t.kind? k = some kind →
      t.names[k]? = some kind.name := by
    intro k kind hk
    unfold names
    rw [List.getElem?_map, show t.kinds[k]? = some kind from hk]
    rfl
  have hlt : id < t.names.length := (List.getElem?_eq_some_iff.1 (hnamed hkind)).1
  refine (List.getElem?_inj hlt h).1 ?_
  rw [hnamed hkind, hnamed hkind', hname]

end ResourceTable
end PoolLint

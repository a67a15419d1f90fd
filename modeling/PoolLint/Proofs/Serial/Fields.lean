import Mathlib.Data.List.Forall2
import Mathlib.Data.List.Nodup
import PoolLint.Serial.JsonFormat
import PoolLint.Proofs.Json.Layout

/-!
# Records as objects

A record is written as an object with a field for each of its parts. It may be written in other
ways as well: the fields may stand in any order, with unknown fields between them, and a field that
holds its default may be left out (`ObjectOf`). In whichever way it is written, each of its fields
is found, or may be left out (`ObjectOf.record_eq`).
-/

namespace PoolLint.Serial

open Json (Scalar)

/-- A field of a record: its name, the values it may be given as, and whether it holds its
default. -/
structure FieldSpec where
  name : String
  holds : Json → Prop
  isDefault : Prop

namespace FieldSpec

/-- A field that must be given. -/
def required (name : String) (holds : Json → Prop) : FieldSpec :=
  ⟨name, holds, False⟩

/-- A field with a default. -/
def defaulted {α : Type} (name : String) (holds : α → Json → Prop) (a default : α) : FieldSpec :=
  ⟨name, holds a, a = default⟩

/-- The field may be given in this way, or left out. -/
def Fills (spec : FieldSpec) : Option Json → Prop
  | some v => spec.holds v
  | none => spec.isDefault

end FieldSpec

/-- The fields of a record in their declared order, some of those that hold their default left
out. -/
inductive Given : List FieldSpec → List (String × Json) → Prop
  | nil : Given [] []
  | keep {spec : FieldSpec} {specs : List FieldSpec} {v : Json} {fields : List (String × Json)} :
      spec.holds v → Given specs fields → Given (spec :: specs) ((spec.name, v) :: fields)
  | leaveOut {spec : FieldSpec} {specs : List FieldSpec} {fields : List (String × Json)} :
      spec.isDefault → Given specs fields → Given (spec :: specs) fields

/-- An object for a record: given fields and unknown ones, in any order. -/
inductive ObjectOf (specs : List FieldSpec) : Json → Prop
  | mk {given unknown fields : List (String × Json)} : Given specs given →
      (∀ f ∈ unknown, f.1 ∉ specs.map FieldSpec.name ∧ Scalar f.2) →
      fields.Perm (given ++ unknown) → ObjectOf specs (.record fields)

/-! ## Finding fields -/

theorem namedFields_some (fields : List (String × Json)) :
    JsonFormat.namedFields (fields.map fun (key, value) => (some key, value)) = some fields := by
  induction fields with
  | nil => rfl
  | cons f fields ih =>
    rw [List.map_cons, JsonFormat.namedFields, ih]
    rfl

/-- The value of the first field of a name. -/
def firstValue (fields : List (String × Json)) (name : String) : Option Json :=
  (fields.filter (·.1 == name)).head?.map (·.2)

theorem mapM_eq_some {α β : Type} {f : α → Option β} {as : List α} {bs : List β}
    (h : List.Forall₂ (fun a b => f a = some b) as bs) : as.mapM f = some bs := by
  induction h with
  | nil => rfl
  | cons hfirst _ ih =>
    rw [List.mapM_cons, hfirst, ih]
    rfl

/-- Fields are found if no declared name is given twice. -/
theorem orderFields_eq {names : List String} {fields : List (String × Json)}
    (h : ∀ name ∈ names, (fields.filter (·.1 == name)).length ≤ 1) :
    orderFields names fields = some (names.map (firstValue fields)) := by
  unfold orderFields
  refine mapM_eq_some (List.forall₂_map_right_iff.2 (List.forall₂_same.2 ?_))
  intro name hname
  have honce := h name hname
  unfold firstValue
  cases hfound : fields.filter (·.1 == name) with
  | nil => rfl
  | cons f more =>
    rw [hfound, List.length_cons] at honce
    obtain rfl : more = [] := List.eq_nil_of_length_eq_zero (by omega)
    rfl

theorem Given.mem_names {specs : List FieldSpec} {given : List (String × Json)}
    (h : Given specs given) : ∀ f ∈ given, f.1 ∈ specs.map FieldSpec.name := by
  induction h with
  | nil => simp
  | keep _ _ ih =>
    intro f hf
    rcases List.mem_cons.1 hf with rfl | hf
    · exact List.mem_cons_self
    · exact List.mem_cons_of_mem _ (ih f hf)
  | leaveOut _ _ ih =>
    intro f hf
    exact List.mem_cons_of_mem _ (ih f hf)

theorem Given.filter_eq_nil {specs : List FieldSpec} {given : List (String × Json)}
    (h : Given specs given) {name : String} (hname : name ∉ specs.map FieldSpec.name) :
    given.filter (·.1 == name) = [] := by
  rw [List.filter_eq_nil_iff]
  intro f hf heq
  exact hname (beq_iff_eq.1 heq ▸ h.mem_names f hf)

/-- Each field is given once at most, and left out only if it may be. -/
theorem Given.filter_eq {specs : List FieldSpec} {given : List (String × Json)}
    (h : Given specs given) (hnames : (specs.map FieldSpec.name).Nodup) :
    ∀ spec ∈ specs, ∃ v? : Option Json, spec.Fills v? ∧
      given.filter (·.1 == spec.name) = v?.toList.map (spec.name, ·) := by
  induction h with
  | nil => simp
  | @keep first specs v fields hholds hgiven ih =>
    rw [List.map_cons, List.nodup_cons] at hnames
    intro spec hspec
    rcases List.mem_cons.1 hspec with rfl | hspec
    · refine ⟨some v, hholds, ?_⟩
      rw [List.filter_cons_of_pos (by simp), hgiven.filter_eq_nil hnames.1]
      rfl
    · have hne : first.name ≠ spec.name := by
        intro heq
        exact hnames.1 (heq ▸ List.mem_map_of_mem hspec)
      rw [List.filter_cons_of_neg (by simpa using hne)]
      exact ih hnames.2 spec hspec
  | @leaveOut first specs fields hdefault hgiven ih =>
    rw [List.map_cons, List.nodup_cons] at hnames
    intro spec hspec
    rcases List.mem_cons.1 hspec with rfl | hspec
    · exact ⟨none, hdefault, hgiven.filter_eq_nil hnames.1⟩
    · exact ih hnames.2 spec hspec

/-- In whichever way a record is written, its fields are found. -/
theorem ObjectOf.record_eq {specs : List FieldSpec} {v : Json} (h : ObjectOf specs v)
    (hnames : (specs.map FieldSpec.name).Nodup) :
    ∃ r, JsonFormat.record (specs.map FieldSpec.name) v = some r ∧
      ∀ (i : Nat) (spec : FieldSpec), specs[i]? = some spec → spec.Fills (r.given? i) := by
  cases h with
  | @mk given unknown fields hgiven hunknown hperm =>
    have hfilter : ∀ spec ∈ specs, ∃ v? : Option Json, spec.Fills v? ∧
        fields.filter (·.1 == spec.name) = v?.toList.map (spec.name, ·) := by
      intro spec hspec
      obtain ⟨v?, hfills, hfound⟩ := hgiven.filter_eq hnames spec hspec
      have hnone : unknown.filter (·.1 == spec.name) = [] := by
        rw [List.filter_eq_nil_iff]
        intro f hf heq
        exact (hunknown f hf).1 (beq_iff_eq.1 heq ▸ List.mem_map_of_mem hspec)
      -- at most one field has the name, so that the order does not matter
      have hsame := hperm.filter (·.1 == spec.name)
      rw [List.filter_append, hnone, List.append_nil, hfound] at hsame
      refine ⟨v?, hfills, ?_⟩
      cases v? with
      | none => exact hsame.eq_nil
      | some v => exact hsame.eq_singleton
    have honce : ∀ name ∈ specs.map FieldSpec.name,
        (fields.filter (·.1 == name)).length ≤ 1 := by
      intro name hname
      obtain ⟨spec, hspec, rfl⟩ := List.mem_map.1 hname
      obtain ⟨v?, -, hfound⟩ := hfilter spec hspec
      rw [hfound, List.length_map]
      cases v? with
      | none => exact Nat.zero_le 1
      | some v => exact Nat.le_refl 1
    refine ⟨⟨(specs.map FieldSpec.name).map (firstValue fields), false⟩, ?_, ?_⟩
    · unfold JsonFormat.record Json.record
      simp only [namedFields_some, Option.bind_eq_bind, Option.bind_some, orderFields_eq honce]
      rfl
    · intro i spec hspec
      obtain ⟨v?, hfills, hfound⟩ := hfilter spec (List.mem_of_getElem? hspec)
      have hvalue : (Record.given? ⟨(specs.map FieldSpec.name).map (firstValue fields), false⟩ i)
          = v? := by
        unfold Record.given? firstValue
        rw [List.getElem?_map, List.getElem?_map, hspec]
        simp only [Option.map_some, Option.join_some, hfound]
        cases v? <;> rfl
      rw [hvalue]
      exact hfills

/-! ## Reading fields -/

section Reading

variable {α : Type} {r : Record Json} {i : Nat} {name : String} {holds : Json → Prop}
  {decode : Json → Option α} {a default : α}

theorem required_eq (h : (FieldSpec.required name holds).Fills (r.given? i))
    (hdecode : ∀ v, holds v → decode v = some a) : r.required i decode = some a := by
  unfold Record.required
  cases hgiven : r.given? i with
  | none =>
    rw [hgiven] at h
    exact absurd h id
  | some v =>
    rw [hgiven] at h
    exact hdecode v h

theorem withDefault_eq {holds : α → Json → Prop}
    (h : (FieldSpec.defaulted name holds a default).Fills (r.given? i))
    (hdecode : ∀ v, holds a v → decode v = some a) :
    r.withDefault i default decode = some a := by
  unfold Record.withDefault
  cases hgiven : r.given? i with
  | none =>
    rw [hgiven] at h
    exact congrArg some (Eq.symm h)
  | some v =>
    rw [hgiven] at h
    exact hdecode v h

end Reading

end PoolLint.Serial

import Mathlib.Tactic.SplitIfs
import PoolLint.Proofs.Json.Grammar

/-!
# What is written is JSON

A value all of whose strings and keys denote text, and whose decimal numbers are numbers of the
grammar (`Writable`), is written as one of its texts in either layout (`textOf_compact`,
`textOf_pretty`).
-/

namespace PoolLint.Json

/-! ## Scalars -/

theorem head?_toDigits {n : Nat} (hn : n ≠ 0) : (Nat.toDigits 10 n).head? ≠ some '0' := by
  induction n using Nat.strongRecOn with
  | ind n ih =>
    rw [Nat.toDigits_eq_if (by decide)]
    split
    · rename_i hlt
      have hdigit : ∀ n < 10, n ≠ 0 → n.digitChar ≠ '0' := by decide
      intro heq
      exact hdigit n hlt hn (Option.some.inj heq)
    · rename_i hge
      have hhigh := ih (n / 10) (by omega) (by omega)
      obtain ⟨c, cs, hdigits⟩ :=
        List.exists_cons_of_ne_nil (Nat.toDigits_ne_nil : Nat.toDigits 10 (n / 10) ≠ [])
      rw [hdigits] at hhigh ⊢
      exact hhigh

theorem whole_toDigits (n : Nat) : Whole (Nat.toDigits 10 n) := by
  by_cases hn : n = 0
  · rw [hn, Nat.toDigits_zero]
    exact .zero
  · refine .digits ⟨Nat.toDigits_ne_nil, ?_⟩ (head?_toDigits hn)
    intro c hc
    exact Nat.isDigit_of_mem_toDigits (by decide) (by decide) hc

theorem numeral_toString (n : Int) : Numeral (integer n) (toString n).toList := by
  cases n with
  | ofNat n =>
    have htext : (toString (Int.ofNat n)).toList = Nat.toDigits 10 n := by
      show (toString n).toList = Nat.toDigits 10 n
      rw [Nat.toString_eq_ofList_toDigits, String.toList_ofList]
    have hnumeral := Numeral.natural (whole_toDigits n)
    rw [Nat.ofDigitChars_ten_toDigits] at hnumeral
    rw [htext]
    exact hnumeral
  | negSucc n =>
    have htext : (toString (Int.negSucc n)).toList = '-' :: Nat.toDigits 10 (n + 1) := by
      show ("-" ++ toString (n + 1)).toList = '-' :: Nat.toDigits 10 (n + 1)
      rw [Nat.toString_eq_ofList_toDigits, String.toList_append, String.toList_ofList,
        String.toList_ofList]
      rfl
    have hzero : Nat.toDigits 10 (n + 1) ≠ ['0'] := by
      intro heq
      have hhead := head?_toDigits (Nat.succ_ne_zero n)
      rw [heq] at hhead
      exact hhead rfl
    have hnumeral := Numeral.negative (whole_toDigits (n + 1)) hzero
    rw [Nat.ofDigitChars_ten_toDigits] at hnumeral
    rw [htext]
    exact hnumeral

theorem hexDigit_hexDigit {n : Nat} (hn : n < 16) : HexDigit n (hexDigit n) := by
  have hdigits : ∀ n < 16, "0123456789abcdef".toList[n]? = some (hexDigit n) := by decide
  exact .inl (hdigits n hn)

theorem spellsChar_escapeChar (c : Char) (rest : List Char) :
    SpellsChar c (escapeChar c ++ rest) rest := by
  unfold escapeChar
  split_ifs with hquote hbackslash hbackspace hformFeed hlineFeed hreturn htab hcontrol
  · exact hquote ▸ .quote
  · exact hbackslash ▸ .backslash
  · exact hbackspace ▸ .backspace
  · exact hformFeed ▸ .formFeed
  · exact hlineFeed ▸ .lineFeed
  · exact hreturn ▸ .carriageReturn
  · exact htab ▸ .tab
  · have hunit : HexUnit (16 * (16 * (16 * 0 + 0) + c.toNat / 16) + c.toNat % 16)
        (hexDigit 0 :: hexDigit 0 :: hexDigit (c.toNat / 16) :: hexDigit (c.toNat % 16) :: rest)
        rest :=
      .mk (hexDigit_hexDigit (by decide)) (hexDigit_hexDigit (by decide))
        (hexDigit_hexDigit (by omega)) (hexDigit_hexDigit (by omega))
    have hvalue : 16 * (16 * (16 * 0 + 0) + c.toNat / 16) + c.toNat % 16 = c.toNat := by omega
    rw [hvalue] at hunit
    exact .unit hunit
  · exact .plain hquote hbackslash (Nat.not_lt.1 hcontrol)

theorem spellsChars_escape (s rest : List Char) :
    SpellsChars s (s.flatMap escapeChar ++ '"' :: rest) rest := by
  induction s with
  | nil => exact .close
  | cons c s ih =>
    rw [List.flatMap_cons, List.append_assoc]
    exact .next (spellsChar_escapeChar c _) ih

theorem toList_quoted (s : String) :
    (quoted s).toList = '"' :: (s.toList.flatMap escapeChar ++ ['"']) := by
  unfold quoted
  rw [String.toList_append, String.toList_append, String.toList_ofList, String.toList_ofList]
  rfl

theorem spells_quoted (s : String) (rest : List Char) :
    Spells (text s) ((quoted s).toList ++ rest) rest := by
  have hspells := Spells.string (spellsChars_escape s.toList rest)
  rw [String.ofList_toList] at hspells
  rw [toList_quoted, List.cons_append, List.append_assoc]
  exact hspells

theorem spellsKey_quoted {cs rest : List Char} (key : String)
    (h : Blanks cs ((quoted key).toList ++ ':' :: rest)) : SpellsKey key cs rest := by
  rw [toList_quoted, List.cons_append, List.append_assoc] at h
  have hkey := SpellsKey.mk h (spellsChars_escape key.toList _) .none
  rwa [String.ofList_toList] at hkey

/-- A value that is neither array nor object; a decimal number is a number of the grammar. -/
inductive Scalar : Json → Prop
  | null : Scalar null
  | bool (b : Bool) : Scalar (bool b)
  | integer (n : Int) : Scalar (integer n)
  | decimal {written : String} : Numeral (decimal written) written.toList →
      Scalar (decimal written)
  | text (s : String) : Scalar (text s)

/-- A scalar has one text in both layouts. -/
theorem Scalar.indented_eq {v : Json} (h : Scalar v) (depth : Nat) :
    v.indented depth = v.compact := by
  cases h with
  | null => rw [indented, compact]
  | bool b => cases b <;> rw [indented, compact]
  | integer n => rw [indented, compact]
  | decimal _ => rw [indented, compact]
  | text s => rw [Json.text, indented, compact]

theorem Scalar.spells_compact {v : Json} (h : Scalar v) (rest : List Char) :
    Spells v (v.compact.toList ++ rest) rest := by
  cases h with
  | null =>
    rw [compact]
    exact .null
  | bool b =>
    cases b with
    | true =>
      rw [compact]
      exact .true
    | false =>
      rw [compact]
      exact .false
  | integer n =>
    rw [compact]
    exact .number (numeral_toString n)
  | decimal hnumeral =>
    rw [compact]
    exact .number hnumeral
  | text s =>
    rw [Json.text, compact]
    exact spells_quoted s rest

/-! ## Items and fields in any layout -/

/-- Items one after another, with a gap after each comma. -/
def itemsText (write : Json → String) (gap : String) : List Json → String
  | [] => ""
  | [v] => write v
  | v :: w :: rest => write v ++ "," ++ gap ++ itemsText write gap (w :: rest)

/-- Fields one after another, with the given sign between a key and its value and a gap after each
comma. -/
def fieldsText (write : Json → String) (colon gap : String) :
    List (Option String × Json) → String
  | [] => ""
  | [(key, v)] => quotedText key ++ colon ++ write v
  | (key, v) :: f :: rest =>
    quotedText key ++ colon ++ write v ++ "," ++ gap ++ fieldsText write colon gap (f :: rest)

theorem compactItems_eq (items : List Json) :
    compactItems items = itemsText compact "" items := by
  induction items with
  | nil => rw [compactItems, itemsText]
  | cons v items ih =>
    cases items with
    | nil => rw [compactItems, itemsText]
    | cons w rest => rw [compactItems, itemsText, ih, String.append_empty]

theorem compactFields_eq (fields : List (Option String × Json)) :
    compactFields fields = fieldsText compact ":" "" fields := by
  induction fields with
  | nil => rw [compactFields, fieldsText]
  | cons f fields ih =>
    cases fields with
    | nil => rw [compactFields, fieldsText]
    | cons f' rest => rw [compactFields, fieldsText, ih, String.append_empty]

theorem indentedItems_eq (depth : Nat) (items : List Json) :
    indentedItems depth items = itemsText (indented depth) (newline depth) items := by
  induction items with
  | nil => rw [indentedItems, itemsText]
  | cons v items ih =>
    cases items with
    | nil => rw [indentedItems, itemsText]
    | cons w rest => rw [indentedItems, itemsText, ih]

theorem indentedFields_eq (depth : Nat) (fields : List (Option String × Json)) :
    indentedFields depth fields = fieldsText (indented depth) ": " (newline depth) fields := by
  induction fields with
  | nil => rw [indentedFields, fieldsText]
  | cons f fields ih =>
    cases fields with
    | nil => rw [indentedFields, fieldsText]
    | cons f' rest => rw [indentedFields, fieldsText, ih]

/-- A gap between tokens. -/
def IsGap (gap : String) : Prop :=
  ∀ cs, Blanks (gap.toList ++ cs) cs

theorem isGap_empty : IsGap "" :=
  fun _ => .none

theorem isGap_newline (depth : Nat) : IsGap (newline depth) := by
  intro cs
  have hspaces : ∀ n, Blanks (List.replicate n ' ' ++ cs) cs := by
    intro n
    induction n with
    | zero => exact .none
    | succ n ih => exact .space ih
  unfold newline
  rw [String.toList_append, String.toList_ofList, String.toList_ofList]
  exact .lineFeed (hspaces (2 * depth))

/-- A colon, and a gap after it. -/
def IsColon (colon : String) : Prop :=
  ∀ cs, ∃ cs', colon.toList ++ cs = ':' :: cs' ∧ Blanks cs' cs

theorem isColon_plain : IsColon ":" :=
  fun cs => ⟨cs, rfl, .none⟩

theorem isColon_spaced : IsColon ": " :=
  fun cs => ⟨' ' :: cs, rfl, .space .none⟩

section Layout

variable {write : Json → String} {colon gap : String} {closing rest : List Char}

theorem spellsItems_itemsText {items : List Json} (hgap : IsGap gap)
    (hclosing : Blanks closing (']' :: rest))
    (h : ∀ v ∈ items, ∀ rest, Spells v ((write v).toList ++ rest) rest) (hne : items ≠ []) :
    SpellsItems items (gap.toList ++ ((itemsText write gap items).toList ++ closing)) rest := by
  induction items with
  | nil => exact absurd rfl hne
  | cons v items ih =>
    have hv := h v List.mem_cons_self
    -- the last item is not followed by a comma
    cases items with
    | nil =>
      rw [itemsText]
      exact .lastItem (hgap _) (hv closing) hclosing
    | cons w items =>
      have hitems := ih (fun u hu => h u (List.mem_cons_of_mem _ hu)) (List.cons_ne_nil _ _)
      rw [itemsText, String.toList_append, String.toList_append, String.toList_append,
        List.append_assoc, List.append_assoc, List.append_assoc]
      exact .nextItem (hgap _) (hv _) .none hitems

theorem spellsFields_fieldsText {fields : List (Option String × Json)} (hcolon : IsColon colon)
    (hgap : IsGap gap) (hclosing : Blanks closing ('\x7d' :: rest))
    (hkeys : ∀ f ∈ fields, f.1.isSome = true)
    (h : ∀ f ∈ fields, ∀ rest, Spells f.2 ((write f.2).toList ++ rest) rest) (hne : fields ≠ []) :
    SpellsFields fields (gap.toList ++ ((fieldsText write colon gap fields).toList ++ closing))
      rest := by
  induction fields with
  | nil => exact absurd rfl hne
  | cons f fields ih =>
    obtain ⟨key?, v⟩ := f
    obtain ⟨key, rfl⟩ := Option.isSome_iff_exists.1 (hkeys (key?, v) List.mem_cons_self)
    have hv := h (some key, v) List.mem_cons_self
    have hfield : ∀ cs, ∃ cs', SpellsKey key
        (gap.toList ++ ((quotedText (some key)).toList ++ (colon.toList ++ cs))) cs' ∧
          Blanks cs' cs := by
      intro cs
      obtain ⟨cs', heq, hblanks⟩ := hcolon cs
      rw [heq]
      exact ⟨cs', spellsKey_quoted key (hgap _), hblanks⟩
    cases fields with
    | nil =>
      obtain ⟨cs', hkey, hblanks⟩ := hfield ((write v).toList ++ closing)
      rw [fieldsText, String.toList_append, String.toList_append, List.append_assoc,
        List.append_assoc]
      exact .lastField hkey hblanks (hv closing) hclosing
    | cons f fields =>
      have hfields := ih (fun g hg => hkeys g (List.mem_cons_of_mem _ hg))
        (fun g hg => h g (List.mem_cons_of_mem _ hg)) (List.cons_ne_nil _ _)
      obtain ⟨cs', hkey, hblanks⟩ := hfield ((write v).toList ++ (',' :: (gap.toList ++
        ((fieldsText write colon gap (f :: fields)).toList ++ closing))))
      rw [fieldsText]
      simp only [String.toList_append, List.append_assoc]
      exact .nextField hkey hblanks (hv _) .none hfields

end Layout

/-! ## Values -/

/-- Strings and keys denote text, and decimal numbers are numbers of the grammar. -/
inductive Writable : Json → Prop
  | scalar {v : Json} : Scalar v → Writable v
  | array {items : List Json} : (∀ v ∈ items, Writable v) → Writable (array items)
  | object {fields : List (Option String × Json)} : (∀ f ∈ fields, f.1.isSome = true) →
      (∀ f ∈ fields, Writable f.2) → Writable (object fields)

theorem Writable.record {fields : List (String × Json)} (h : ∀ f ∈ fields, Writable f.2) :
    Writable (record fields) := by
  refine .object ?_ ?_
  · intro f hf
    obtain ⟨f', -, rfl⟩ := List.mem_map.1 hf
    rfl
  · intro f hf
    obtain ⟨f', hf', rfl⟩ := List.mem_map.1 hf
    exact h f' hf'

theorem Writable.spells_compact {v : Json} (h : Writable v) (rest : List Char) :
    Spells v (v.compact.toList ++ rest) rest := by
  induction h generalizing rest with
  | scalar h => exact h.spells_compact rest
  | @array items _ ih =>
    cases items with
    | nil =>
      rw [compact, compactItems]
      exact .emptyArray .none
    | cons v items =>
      rw [compact, compactItems_eq, String.toList_append, String.toList_append, List.append_assoc,
        List.append_assoc]
      exact .array (spellsItems_itemsText isGap_empty .none ih (List.cons_ne_nil _ _))
  | @object fields hkeys _ ih =>
    cases fields with
    | nil =>
      rw [compact, compactFields]
      exact .emptyObject .none
    | cons f fields =>
      rw [compact, compactFields_eq, String.toList_append, String.toList_append,
        List.append_assoc, List.append_assoc]
      exact .object (spellsFields_fieldsText isColon_plain isGap_empty .none hkeys ih
        (List.cons_ne_nil _ _))

theorem Writable.spells_indented {v : Json} (h : Writable v) (depth : Nat) (rest : List Char) :
    Spells v ((v.indented depth).toList ++ rest) rest := by
  -- what is inside a bracket is indented more, so the depth varies
  induction h generalizing depth rest with
  | scalar h =>
    rw [h.indented_eq]
    exact h.spells_compact rest
  | @array items _ ih =>
    cases items with
    | nil =>
      rw [indented]
      exact .emptyArray .none
    | cons v items =>
      rw [indented, indentedItems_eq]
      simp only [String.toList_append, List.append_assoc]
      exact .array (spellsItems_itemsText (isGap_newline _) (isGap_newline depth _)
        (fun v hv => ih v hv _) (List.cons_ne_nil _ _))
  | @object fields hkeys _ ih =>
    cases fields with
    | nil =>
      rw [indented]
      exact .emptyObject .none
    | cons f fields =>
      rw [indented, indentedFields_eq]
      simp only [String.toList_append, List.append_assoc]
      exact .object (spellsFields_fieldsText isColon_spaced (isGap_newline _)
        (isGap_newline depth _) hkeys (fun f hf => ih f hf _) (List.cons_ne_nil _ _))

theorem Writable.textOf_compact {v : Json} (h : Writable v) : TextOf v v.compact := by
  have hspells := h.spells_compact []
  rw [List.append_nil] at hspells
  exact .mk .none hspells .none

theorem Writable.textOf_pretty {v : Json} (h : Writable v) : TextOf v v.pretty := by
  have hspells := h.spells_indented 0 []
  rw [List.append_nil] at hspells
  exact .mk .none hspells .none

end PoolLint.Json

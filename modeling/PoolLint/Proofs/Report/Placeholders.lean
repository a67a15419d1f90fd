import Mathlib.Data.List.Infix
import Mathlib.Data.List.Nodup
import PoolLint.Proofs.Report.Filling

/-!
# Filling in several parameters

What it means to fill in a template does not depend on an order: each placeholder of a parameter
gives way to the parameter's value, and everything else stays (`Filled`). A draft fills in its
parameters one after the other, so what a later parameter meets is no longer the template. It comes
to the same if no placeholder of a later parameter can begin inside a value (`OpensIn`), and if the
template has no brace inside of a placeholder (`build_filled`). The values of earlier parameters
are filled in turn otherwise, and then the order of parameters matters (`build_refills`).
-/

namespace PoolLint

namespace Template

/-- A text that has neither an opening nor a closing brace. -/
def BraceFree (text : List Char) : Prop :=
  '\x7b' ∉ text ∧ '\x7d' ∉ text

/-- Every placeholder of a parameter is replaced by the parameter's value, all at once. -/
inductive Filled (params : List (String × String)) : List Char → List Char → Prop
  | nil : Filled params [] []
  | value {param : String × String} {rest out : List Char} (hparam : param ∈ params)
      (h : Filled params rest out) :
      Filled params (placeholder param.1.toList ++ rest) (param.2.toList ++ out)
  | character {c : Char} {rest out : List Char}
      (hother : ∀ param ∈ params, ¬ placeholder param.1.toList <+: c :: rest)
      (h : Filled params rest out) : Filled params (c :: rest) (c :: out)

/-- A placeholder of the key can begin inside the value: from some character on, the value agrees
with the placeholder as far as both go. -/
def OpensIn (key value : List Char) : Prop :=
  ∃ tail ∈ value.tails, tail ≠ [] ∧ (tail <+: placeholder key ∨ placeholder key <+: tail)

instance (key value : List Char) : Decidable (OpensIn key value) :=
  inferInstanceAs (Decidable (∃ tail ∈ value.tails, _))

instance (text : List Char) : Decidable (BraceFree text) :=
  inferInstanceAs (Decidable (_ ∧ _))

variable {params : List (String × String)} {key key' value text rest out out' : List Char}

/-! ## Placeholders -/

theorem placeholder_append (key rest : List Char) :
    placeholder key ++ rest = '\x7b' :: (key ++ '\x7d' :: rest) := by
  simp [placeholder]

/-- A key ends where its placeholder is closed. -/
theorem eq_of_closed (hkey : '\x7d' ∉ key) (hkey' : '\x7d' ∉ key')
    (h : key ++ '\x7d' :: rest = key' ++ '\x7d' :: out) : key = key' ∧ rest = out := by
  induction key generalizing key' with
  | nil =>
    cases key' with
    | nil => exact ⟨rfl, (List.cons.inj h).2⟩
    | cons c key' =>
      have hc : '\x7d' = c := (List.cons.inj h).1
      exact absurd (hc ▸ List.mem_cons_self) hkey'
  | cons c key ih =>
    cases key' with
    | nil =>
      have hc : c = '\x7d' := (List.cons.inj h).1
      exact absurd (hc ▸ List.mem_cons_self) hkey
    | cons c' key' =>
      simp only [List.cons_append, List.cons.injEq, List.mem_cons, not_or] at h hkey hkey'
      obtain ⟨hsame, hrest⟩ := ih hkey.2 hkey'.2 h.2
      exact ⟨by rw [h.1, hsame], hrest⟩

/-- Only an opening brace begins a placeholder. -/
theorem not_placeholder_prefix {c : Char} (hc : c ≠ '\x7b') (key rest : List Char) :
    ¬ placeholder key <+: c :: rest := by
  intro h
  rw [placeholder, List.cons_append, List.cons_prefix_cons] at h
  exact hc h.1.symm

/-! ## Filling in one parameter -/

theorem replaceFrom_of_ne {c : Char} (h : ¬ placeholder key <+: c :: rest) :
    replaceFrom (placeholder key) value 0 (c :: rest) =
      c :: replaceFrom (placeholder key) value 0 rest := by
  have hother : (placeholder key).isPrefixOf (c :: rest) = false :=
    Bool.eq_false_iff.2 fun hprefix => h (List.isPrefixOf_iff_prefix.1 hprefix)
  rw [replaceFrom, hother]
  rfl

/-- A text in which the placeholder does not begin stays as it is, whatever follows. -/
theorem replaceFrom_of_not_opensIn (h : ¬ OpensIn key text) :
    replaceFrom (placeholder key) value 0 (text ++ rest) =
      text ++ replaceFrom (placeholder key) value 0 rest := by
  induction text with
  | nil => rfl
  | cons c text ih =>
    have hhead : ¬ placeholder key <+: c :: (text ++ rest) := by
      intro hprefix
      have hagree := List.prefix_or_prefix_of_prefix hprefix (List.prefix_append (c :: text) rest)
      exact h ⟨c :: text, by simp, by simp, hagree.symm⟩
    have htail : ¬ OpensIn key text := by
      intro hopens
      obtain ⟨tail, hmem, hne, hagree⟩ := hopens
      exact h ⟨tail, by simp [hmem], hne, hagree⟩
    rw [List.cons_append, replaceFrom_of_ne hhead, ih htail, List.cons_append]

/-! ## The keys of a template -/

theorem keysFrom_plain (htext : '\x7b' ∉ text) : keysFrom none (text ++ rest) =
    keysFrom none rest := by
  induction text with
  | nil => rfl
  | cons c text ih =>
    simp only [List.mem_cons, not_or] at htext
    rw [List.cons_append, keysFrom, if_neg (Ne.symm htext.1), ih htext.2]

theorem keysFrom_closed (seen : List Char) (htext : '\x7d' ∉ text) :
    keysFrom (some seen) (text ++ '\x7d' :: rest) =
      if (seen.reverse ++ text).isEmpty then keysFrom none rest
      else (seen.reverse ++ text) :: keysFrom none rest := by
  induction text generalizing seen with
  | nil => simp [keysFrom]
  | cons c text ih =>
    simp only [List.mem_cons, not_or] at htext
    rw [List.cons_append, keysFrom, if_neg (Ne.symm htext.1), ih (c :: seen) htext.2]
    simp

theorem keysFrom_unclosed (open? : Option (List Char)) (htext : '\x7d' ∉ text) :
    keysFrom open? text = [] := by
  induction text generalizing open? with
  | nil => cases open? <;> rfl
  | cons c text ih =>
    simp only [List.mem_cons, not_or] at htext
    cases open? with
    | none => rw [keysFrom, ih _ htext.2]
    | some seen => rw [keysFrom, if_neg (Ne.symm htext.1), ih _ htext.2]

/-- Between an opening brace and the next closing one there is no other that opens. -/
def Flat (text : List Char) : Prop :=
  ∀ key ∈ keysFrom none text, '\x7b' ∉ key

instance (text : List Char) : Decidable (Flat text) :=
  inferInstanceAs (Decidable (∀ key ∈ keysFrom none text, _))

theorem flat_plain_iff (htext : '\x7b' ∉ text) : Flat (text ++ rest) ↔ Flat rest := by
  unfold Flat
  rw [keysFrom_plain htext]

theorem flat_of_unclosed (htext : '\x7d' ∉ text) : Flat text := by
  simp [Flat, keysFrom_unclosed none htext]

/-- An opening brace of a flat text is closed before the next one opens, or never. -/
theorem Flat.closed_or_unclosed (h : Flat ('\x7b' :: rest)) :
    '\x7d' ∉ rest ∨
      ∃ key rest', BraceFree key ∧ rest = key ++ '\x7d' :: rest' ∧ Flat rest' := by
  by_cases hclosed : '\x7d' ∈ rest
  · right
    obtain ⟨key, rest', hrest, hkey⟩ := List.eq_append_cons_of_mem hclosed
    have hkeys : keysFrom none ('\x7b' :: rest) =
        if key.isEmpty then keysFrom none rest' else key :: keysFrom none rest' := by
      rw [keysFrom, if_pos rfl, hrest, keysFrom_closed [] hkey]
      rfl
    have hflat : '\x7b' ∉ key ∧ Flat rest' := by
      unfold Flat at h
      rw [hkeys] at h
      by_cases hempty : key = []
      · subst hempty
        exact ⟨by simp, h⟩
      · rw [if_neg (by simpa using hempty)] at h
        exact ⟨h key (by simp), fun other hother => h other (by simp [hother])⟩
    exact ⟨key, rest', ⟨hflat.1, hkey⟩, hrest, hflat.2⟩
  · exact .inl hclosed

theorem Flat.of_placeholder (hkey : '\x7d' ∉ key) (h : Flat (placeholder key ++ rest)) :
    Flat rest := by
  rw [placeholder_append] at h
  cases h.closed_or_unclosed with
  | inl hunclosed => simp at hunclosed
  | inr hclosed =>
    obtain ⟨key', rest', hkey', hrest, hflat⟩ := hclosed
    rw [(eq_of_closed hkey hkey'.2 hrest).2]
    exact hflat

/-! ## Filled texts -/

/-- A filled text is empty, or begins with a value or with a character that stays. -/
theorem Filled.inversion (h : Filled params text out) :
    text = [] ∧ out = [] ∨
    (∃ param ∈ params, ∃ rest out', text = placeholder param.1.toList ++ rest ∧
      out = param.2.toList ++ out' ∧ Filled params rest out') ∨
    ∃ c rest out', text = c :: rest ∧ out = c :: out' ∧
      (∀ param ∈ params, ¬ placeholder param.1.toList <+: c :: rest) ∧
      Filled params rest out' := by
  cases h with
  | nil => exact .inl ⟨rfl, rfl⟩
  | value hparam h => exact .inr (.inl ⟨_, hparam, _, _, rfl, rfl, h⟩)
  | character hother h => exact .inr (.inr ⟨_, _, _, rfl, rfl, hother, h⟩)

/-- A character stays where no placeholder begins. -/
theorem Filled.uncons {c : Char} (h : Filled params (c :: rest) out)
    (hother : ∀ param ∈ params, ¬ placeholder param.1.toList <+: c :: rest) :
    ∃ out', out = c :: out' ∧ Filled params rest out' := by
  rcases h.inversion with ⟨hnil, -⟩ | ⟨param, hparam, rest', out', htext, -⟩ |
    ⟨c', rest', out', htext, hout, -, hrest⟩
  · exact absurd hnil (List.cons_ne_nil c rest)
  · exact absurd (htext ▸ List.prefix_append _ _) (hother param hparam)
  · obtain ⟨rfl, rfl⟩ := List.cons.inj htext
    exact ⟨out', hout, hrest⟩

/-- Text without an opening brace stays. -/
theorem Filled.of_plain (htext : '\x7b' ∉ text) (h : Filled params (text ++ rest) out) :
    ∃ out', out = text ++ out' ∧ Filled params rest out' := by
  induction text generalizing out with
  | nil => exact ⟨out, rfl, h⟩
  | cons c text ih =>
    simp only [List.mem_cons, not_or] at htext
    obtain ⟨out', rfl, hrest⟩ := h.uncons fun param _ =>
      not_placeholder_prefix (Ne.symm htext.1) _ _
    obtain ⟨out'', rfl, hrest'⟩ := ih htext.2 hrest
    exact ⟨out'', rfl, hrest'⟩

/-- Text without a closing brace stays. -/
theorem Filled.of_unclosed (htext : '\x7d' ∉ text) (h : Filled params text out) : out = text := by
  induction h with
  | nil => rfl
  | value hparam h ih => simp [placeholder] at htext
  | character hother h ih =>
    simp only [List.mem_cons, not_or] at htext
    rw [ih htext.2]

/-- What a text is filled to is settled by the parameters, if their keys tell them apart. -/
theorem Filled.unique (hkeys : (params.map Prod.fst).Nodup)
    (hbraces : ∀ param ∈ params, BraceFree param.1.toList) (h : Filled params text out)
    (h' : Filled params text out') : out = out' := by
  induction h generalizing out' with
  | nil =>
    rcases h'.inversion with ⟨-, hout⟩ | ⟨param, -, rest', -, htext, -⟩ | ⟨c, rest', -, htext, -⟩
    · exact hout.symm
    · simp [placeholder] at htext
    · simp at htext
  | @value param rest out hparam h ih =>
    rcases h'.inversion with ⟨htext, -⟩ | ⟨param', hparam', rest', out'', htext, rfl, hrest⟩ |
      ⟨c, rest', -, htext, -, hother, -⟩
    · simp [placeholder] at htext
    · rw [placeholder_append, placeholder_append, List.cons.injEq] at htext
      obtain ⟨hkey, hsame⟩ := eq_of_closed (hbraces param hparam).2 (hbraces param' hparam').2
        htext.2
      have hparams : param = param' :=
        List.inj_on_of_nodup_map hkeys hparam hparam' (String.toList_inj.1 hkey)
      rw [hparams, ih (hsame ▸ hrest)]
    · exact absurd (htext ▸ List.prefix_append _ _) (hother param hparam)
  | character hother h ih =>
    obtain ⟨out'', rfl, hrest⟩ := h'.uncons hother
    rw [ih hrest]

/-- Filling looks at which parameters there are and not at their order. -/
theorem Filled.perm {params' : List (String × String)} (hperm : params.Perm params')
    (h : Filled params text out) : Filled params' text out := by
  induction h with
  | nil => exact .nil
  | value hparam h ih => exact .value (hperm.mem_iff.1 hparam) ih
  | character hother h ih =>
    exact .character (fun param hparam => hother param (hperm.mem_iff.2 hparam)) ih

/-! ## One parameter after the other -/

/-- Behind a character that stays, filling in does not bring about a placeholder. -/
theorem Filled.kept {c : Char} (hkey : BraceFree key) (hflat : Flat (c :: rest))
    (h : Filled params rest out) (hother : ¬ placeholder key <+: c :: rest) :
    Flat rest ∧ ¬ placeholder key <+: c :: out := by
  by_cases hc : c = '\x7b'
  · subst hc
    cases hflat.closed_or_unclosed with
    | inl hunclosed =>
      rw [h.of_unclosed hunclosed]
      exact ⟨flat_of_unclosed hunclosed, hother⟩
    | inr hclosed =>
      obtain ⟨found, rest', hfound, rfl, hrest'⟩ := hclosed
      have hplain : '\x7b' ∉ found ++ ['\x7d'] := by simp [hfound.1]
      rw [List.append_cons] at h ⊢
      obtain ⟨out', rfl, -⟩ := h.of_plain hplain
      refine ⟨(flat_plain_iff hplain).2 hrest', ?_⟩
      intro hprefix
      obtain ⟨after, hafter⟩ := hprefix
      rw [placeholder_append, List.append_assoc, List.cons.injEq] at hafter
      -- both keys reach up to the first closing brace
      obtain ⟨rfl, -⟩ := eq_of_closed hkey.2 hfound.2 hafter.2
      exact hother ⟨rest', placeholder_append key rest'⟩
  · have hplain : '\x7b' ∉ [c] := by simpa using Ne.symm hc
    exact ⟨(flat_plain_iff hplain).1 hflat, not_placeholder_prefix hc key out⟩

/-- What is left when the earlier parameters are filled in has the placeholder of the last one at
the same places as the template. -/
theorem Filled.fill_last {param : String × String}
    (hbraces : ∀ param ∈ params, BraceFree param.1.toList) (hkey : BraceFree param.1.toList)
    (hvalues : ∀ earlier ∈ params, ¬ OpensIn param.1.toList earlier.2.toList)
    (hflat : Flat text) (h : Filled params text out) :
    Filled (params ++ [param]) text (fill out param) := by
  induction hn : text.length using Nat.strong_induction_on generalizing text out with
  | _ n ih =>
  unfold fill at ih ⊢
  rcases h.inversion with ⟨rfl, rfl⟩ | ⟨earlier, hearlier, rest, out', rfl, rfl, hrest⟩ |
    ⟨c, rest, out', rfl, rfl, hother, hrest⟩
  · exact .nil
  · -- an earlier parameter: its value is passed over
    have hlt : rest.length < n := by
      simp only [placeholder, List.length_append, List.length_cons] at hn
      omega
    rw [replaceFrom_of_not_opensIn (hvalues earlier hearlier)]
    exact .value (List.mem_append_left _ hearlier)
      (ih rest.length hlt (hflat.of_placeholder (hbraces earlier hearlier).2) hrest rfl)
  · by_cases hhere : placeholder param.1.toList <+: c :: rest
    · -- the last parameter: its placeholder is still there
      obtain ⟨rest', hrest'⟩ := hhere
      have htext := hrest'
      rw [placeholder_append, List.cons.injEq, List.append_cons] at htext
      obtain ⟨rfl, rfl⟩ := htext
      obtain ⟨out'', rfl, hrest''⟩ := hrest.of_plain (by simp [hkey.1])
      have hlt : rest'.length < n := by
        simp only [List.length_append, List.length_cons] at hn
        omega
      have hkept : '\x7b' :: (param.1.toList ++ ['\x7d'] ++ out'') =
          placeholder param.1.toList ++ out'' := by
        simp [placeholder]
      rw [hkept, replaceFrom_placeholder, ← hrest']
      rw [← hrest'] at hflat
      exact .value (List.mem_append_right _ (List.mem_singleton.2 rfl))
        (ih rest'.length hlt (hflat.of_placeholder hkey.2) hrest'' rfl)
    · obtain ⟨hflat', hkept⟩ := hrest.kept hkey hflat hhere
      have hlt : rest.length < n := by
        simp only [List.length_cons] at hn
        omega
      rw [replaceFrom_of_ne hkept]
      refine .character ?_ (ih rest.length hlt hflat' hrest rfl)
      intro other hmem
      rcases List.mem_append.1 hmem with hmem | hmem
      · exact hother other hmem
      · rw [List.mem_singleton.1 hmem]
        exact hhere

/-- With values in which no later placeholder can begin, filling in the parameters one after the
other comes to the same as filling them in at once. -/
theorem filled_foldl (hbraces : ∀ param ∈ params, BraceFree param.1.toList)
    (hvalues : params.Pairwise fun earlier later =>
      ¬ OpensIn later.1.toList earlier.2.toList)
    (hflat : Flat text) : Filled params text (params.foldl fill text) := by
  induction params using List.reverseRecOn with
  | nil =>
    have hplain : ∀ text, Filled [] text text := by
      intro text
      induction text with
      | nil => exact .nil
      | cons c text ih => exact .character (by simp) ih
    exact hplain text
  | append_singleton params param ih =>
    obtain ⟨hearlier, -, hlast⟩ := List.pairwise_append.1 hvalues
    have hinit : ∀ p ∈ params, BraceFree p.1.toList :=
      fun p hp => hbraces p (List.mem_append_left _ hp)
    have hkey := hbraces param (List.mem_append_right _ (List.mem_singleton.2 rfl))
    rw [List.foldl_append]
    exact (ih hinit hearlier).fill_last hinit hkey
      (fun earlier hmem => hlast earlier hmem param (List.mem_singleton.2 rfl)) hflat

end Template

namespace Draft

open Template

variable {d : Draft}

/-- A message that lacks no parameter has the placeholders of parameters only, and these have no
braces inside. -/
theorem flat_message (hbraces : ∀ param ∈ d.params, BraceFree param.1.toList)
    (hcomplete : d.missingParams = []) : Flat d.messageTemplate.toList := by
  intro key hkey
  have hmem : String.ofList key ∈ keys d.messageTemplate := List.mem_map_of_mem hkey
  have hgiven : d.params.any (·.1 == String.ofList key) = true := by
    simpa using List.filter_eq_nil_iff.1 hcomplete _ hmem
  obtain ⟨param, hparam, hsame⟩ := List.any_eq_true.1 hgiven
  have hbrace := (hbraces param hparam).1
  rwa [beq_iff_eq.1 hsame, String.toList_ofList] at hbrace

theorem build_message (hcomplete : d.missingParams = []) :
    d.build.message.toList = d.params.foldl fill d.messageTemplate.toList := by
  unfold build
  rw [hcomplete]
  exact String.toList_ofList

theorem build_help (hcomplete : d.missingParams = []) :
    d.build.help.toList = d.params.foldl fill d.helpTemplate.toList := by
  unfold build
  rw [hcomplete]
  exact String.toList_ofList

theorem missingParams_perm {params : List (String × String)} (h : d.params.Perm params) :
    { d with params := params }.missingParams = d.missingParams := by
  unfold missingParams
  simp only [h.any_eq]

/-- A draft whose message lacks no parameter is built by filling in all parameters at once, each
with its value as it is, if no placeholder of a later parameter can begin inside the value of an
earlier one. The keys have no braces, and neither have the placeholders of the help text inside of
them. The order of the parameters then makes no difference. -/
theorem build_filled (hkeys : (d.params.map Prod.fst).Nodup)
    (hbraces : ∀ param ∈ d.params, BraceFree param.1.toList)
    (hvalues : d.params.Pairwise fun earlier later =>
      ¬ OpensIn later.1.toList earlier.2.toList)
    (hhelp : Flat d.helpTemplate.toList) (hcomplete : d.missingParams = []) :
    (∀ text, Filled d.params d.messageTemplate.toList text ↔ text = d.build.message.toList) ∧
    (∀ text, Filled d.params d.helpTemplate.toList text ↔ text = d.build.help.toList) ∧
    ∀ params, d.params.Perm params →
      (params.Pairwise fun earlier later => ¬ OpensIn later.1.toList earlier.2.toList) →
      { d with params := params }.build = d.build := by
  have hunique : ∀ {template text text' : List Char}, Filled d.params template text →
      Filled d.params template text' → text = text' := fun h => h.unique hkeys hbraces
  have hmessage := filled_foldl hbraces hvalues (flat_message hbraces hcomplete)
  have hhelp' := filled_foldl hbraces hvalues hhelp
  refine ⟨?_, ?_, ?_⟩
  · intro text
    rw [build_message hcomplete]
    exact ⟨fun h => hunique h hmessage, fun h => h ▸ hmessage⟩
  · intro text
    rw [build_help hcomplete]
    exact ⟨fun h => hunique h hhelp', fun h => h ▸ hhelp'⟩
  · intro params hperm hvalues'
    have hbraces' : ∀ param ∈ params, BraceFree param.1.toList :=
      fun param hparam => hbraces param (hperm.mem_iff.2 hparam)
    have hsame : ∀ template : String, Flat template.toList →
        render params template = render d.params template := by
      intro template hflat
      have hfilled := (filled_foldl hbraces' hvalues' hflat).perm hperm.symm
      unfold render
      rw [hunique hfilled (filled_foldl hbraces hvalues hflat)]
    unfold build
    rw [missingParams_perm hperm, hcomplete]
    simp only [List.isEmpty_nil, if_true]
    rw [hsame d.messageTemplate (flat_message hbraces hcomplete), hsame d.helpTemplate hhelp]

/-- Around a value, braces of a help text that does not meet the condition make up a placeholder. -/
example : ({ Draft.new "R0001" "" "\x7bx\x7ba\x7dy\x7d" with
    params := [("a", "b"), ("xby", "z")] } : Draft).build.help = "z" := by decide

/-- A message about two names, with a value for each. -/
def ownedBy (kind owner : String) : Draft :=
  { Draft.new "R0001" "\x7bkind\x7d of \x7bowner\x7d" "give back the \x7bkind\x7d" with
    params := [("kind", kind), ("owner", owner)] }

/-- Braces in values stay as they are. -/
theorem build_filled_of_braces :
    let d := ownedBy "Set\x7bint\x7d" "\x7bPool\x7d"
    (∀ text, Filled d.params d.messageTemplate.toList text ↔
      text = "Set\x7bint\x7d of \x7bPool\x7d".toList) ∧
    { d with params := d.params.reverse }.build = d.build := by
  intro d
  obtain ⟨hmessage, -, hperm⟩ := build_filled (d := d) (by decide) (by decide) (by decide)
    (by decide) (by decide)
  have htext : d.build.message = "Set\x7bint\x7d of \x7bPool\x7d" := by decide
  rw [htext] at hmessage
  exact ⟨hmessage, hperm _ (List.reverse_perm _).symm (by decide)⟩

/-- The value of the first parameter is filled in turn by the second one, so it does not stand in
the message as it is. With the parameters in the other order it does. -/
theorem build_refills :
    let d := ownedBy "\x7bowner\x7d" "Pool"
    d.missingParams = [] ∧ (d.params.map Prod.fst).Nodup ∧
      Filled d.params d.messageTemplate.toList "\x7bowner\x7d of Pool".toList ∧
      d.build.message = "Pool of Pool" ∧
      { d with params := d.params.reverse }.build.message = "\x7bowner\x7d of Pool" := by
  intro d
  have hfilled : Filled d.params.reverse d.messageTemplate.toList
      (d.params.reverse.foldl fill d.messageTemplate.toList) :=
    filled_foldl (by decide) (by decide) (by decide)
  have htext : d.params.reverse.foldl fill d.messageTemplate.toList =
      "\x7bowner\x7d of Pool".toList := by decide
  rw [htext] at hfilled
  exact ⟨by decide, by decide, hfilled.perm (List.reverse_perm _), by decide, by decide⟩

end Draft
end PoolLint

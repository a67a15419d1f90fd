import PoolLint.Proofs.Report.Placeholders

/-!
# Missing parameters

When a draft is built without its diagnostic, and which placeholders a built diagnostic still shows.

The draft looks through the message for what is enclosed in braces, from an opening brace to the
next closing one (`mem_keysFrom_iff`), while filling in looks for the placeholders of parameters.
Both agree on a message in which no brace opens inside of others (`encloses_iff_shows`). Filling in
then takes away the placeholders of the parameters and no others (`keysFrom_foldl_fill`), so a built
message has none left. The help text is filled in as well, but it is not looked through
(`build_parameters`, `build_overlooks`).
-/

namespace PoolLint

namespace Template

variable {key text rest value : List Char} {params : List (String × String)}

/-! ## Texts and their braces -/

/-- A text goes on with a character, with braces up to the first one that closes, or with a brace
that is never closed. -/
@[elab_as_elim]
theorem brace_induction {motive : List Char → Prop} (nil : motive [])
    (character : ∀ c rest, c ≠ '\x7b' → motive rest → motive (c :: rest))
    (braces : ∀ key rest, '\x7d' ∉ key → motive rest → motive (placeholder key ++ rest))
    (unclosed : ∀ rest, '\x7d' ∉ rest → motive ('\x7b' :: rest)) (text : List Char) :
    motive text := by
  induction hn : text.length using Nat.strong_induction_on generalizing text with
  | _ n ih =>
  cases text with
  | nil => exact nil
  | cons c rest =>
    rw [List.length_cons] at hn
    by_cases hc : c = '\x7b'
    · subst hc
      by_cases hclosed : '\x7d' ∈ rest
      · obtain ⟨key, rest', rfl, hkey⟩ := List.eq_append_cons_of_mem hclosed
        rw [← placeholder_append]
        refine braces key rest' hkey (ih rest'.length ?_ rest' rfl)
        simp only [List.length_append, List.length_cons] at hn
        omega
      · exact unclosed rest hclosed
    · exact character c rest hc (ih rest.length (by omega) rest rfl)

/-- A text that ends outside of braces. -/
inductive Closed : List Char → Prop
  | nil : Closed []
  | character {c : Char} {rest : List Char} (hc : c ≠ '\x7b') (h : Closed rest) :
      Closed (c :: rest)
  | braces {key rest : List Char} (hkey : '\x7d' ∉ key) (h : Closed rest) :
      Closed (placeholder key ++ rest)

/-- The characters stand in the text between an opening brace and the next closing one, where no
brace was open before. -/
def Encloses (text key : List Char) : Prop :=
  key ≠ [] ∧ '\x7d' ∉ key ∧ ∃ before after, Closed before ∧
    text = before ++ (placeholder key ++ after)

/-- The placeholder of a key stands somewhere in the text. The key is not empty, and has no
braces. -/
def Shows (text key : List Char) : Prop :=
  key ≠ [] ∧ BraceFree key ∧ ∃ before after, text = before ++ (placeholder key ++ after)

/-- One of the parameters has this key. -/
def Given (params : List (String × String)) (key : List Char) : Prop :=
  ∃ param ∈ params, param.1.toList = key

instance (params : List (String × String)) (key : List Char) : Decidable (Given params key) :=
  inferInstanceAs (Decidable (∃ param ∈ params, _))

/-! ## What is found between braces -/

theorem keysFrom_character {c : Char} (hc : c ≠ '\x7b') :
    keysFrom none (c :: rest) = keysFrom none rest := by
  rw [keysFrom, if_neg hc]

theorem keysFrom_placeholder (hkey : '\x7d' ∉ key) : keysFrom none (placeholder key ++ rest) =
    if key = [] then keysFrom none rest else key :: keysFrom none rest := by
  rw [placeholder_append, keysFrom, if_pos rfl, keysFrom_closed [] hkey]
  simp only [List.reverse_nil, List.nil_append, List.isEmpty_iff]

/-- Behind a closed text the search for braces begins anew. -/
theorem Closed.keysFrom_append (h : Closed text) (rest : List Char) :
    keysFrom none (text ++ rest) = keysFrom none text ++ keysFrom none rest := by
  induction h with
  | nil => rfl
  | character hc h ih =>
    rw [List.cons_append, keysFrom_character hc, keysFrom_character hc, ih]
  | @braces key _ hkey h ih =>
    rw [List.append_assoc, keysFrom_placeholder hkey, keysFrom_placeholder hkey, ih]
    by_cases hempty : key = []
    · rw [if_pos hempty, if_pos hempty]
    · rw [if_neg hempty, if_neg hempty, List.cons_append]

/-- The keys that are found are what is enclosed in braces. -/
theorem mem_keysFrom_iff : key ∈ keysFrom none text ↔ Encloses text key := by
  constructor
  · intro h
    induction text using brace_induction with
    | nil => cases h
    | character c rest hc ih =>
      rw [keysFrom_character hc] at h
      obtain ⟨hne, hkey, before, after, hbefore, rfl⟩ := ih h
      exact ⟨hne, hkey, c :: before, after, .character hc hbefore, rfl⟩
    | braces found rest hfound ih =>
      have hlater : key ∈ keysFrom none rest → Encloses (placeholder found ++ rest) key := by
        intro hmem
        obtain ⟨hne, hkey, before, after, hbefore, rfl⟩ := ih hmem
        exact ⟨hne, hkey, placeholder found ++ before, after, .braces hfound hbefore,
          (List.append_assoc _ _ _).symm⟩
      rw [keysFrom_placeholder hfound] at h
      by_cases hempty : found = []
      · rw [if_pos hempty] at h
        exact hlater h
      · rw [if_neg hempty] at h
        cases h with
        | head => exact ⟨hempty, hfound, [], rest, .nil, rfl⟩
        | tail _ hmem => exact hlater hmem
    | unclosed rest hrest =>
      rw [keysFrom_unclosed none (by simpa using hrest)] at h
      cases h
  · rintro ⟨hne, hkey, before, after, hbefore, rfl⟩
    rw [hbefore.keysFrom_append, keysFrom_placeholder hkey, if_neg hne]
    exact List.mem_append_right _ List.mem_cons_self

/-- A placeholder is found, though perhaps from a brace on that opened before it. -/
theorem Shows.exists_found (h : Shows text key) :
    ∃ found ∈ keysFrom none text, found = key ∨ '\x7b' :: key <:+ found := by
  obtain ⟨hne, hkey, before, after, rfl⟩ := h
  induction before using brace_induction with
  | nil =>
    refine ⟨key, ?_, .inl rfl⟩
    rw [List.nil_append, keysFrom_placeholder hkey.2, if_neg hne]
    exact List.mem_cons_self
  | character c before hc ih =>
    rw [List.cons_append, keysFrom_character hc]
    exact ih
  | braces other before hother ih =>
    obtain ⟨found, hmem, hfound⟩ := ih
    refine ⟨found, ?_, hfound⟩
    rw [List.append_assoc, keysFrom_placeholder hother]
    split
    · exact hmem
    · exact List.mem_cons_of_mem _ hmem
  | unclosed before hbefore =>
    -- the brace is still open where the placeholder begins
    have htext : '\x7b' :: before ++ (placeholder key ++ after) =
        placeholder (before ++ '\x7b' :: key) ++ after := by
      simp [placeholder]
    refine ⟨before ++ '\x7b' :: key, ?_, .inr ⟨before, rfl⟩⟩
    rw [htext, keysFrom_placeholder (by simp [hbefore, hkey.2]), if_neg (by simp)]
    exact List.mem_cons_self

/-- Where no brace opens inside of others, what is enclosed in braces are the placeholders. -/
theorem encloses_iff_shows (hflat : Flat text) : Encloses text key ↔ Shows text key := by
  constructor
  · intro h
    have hopen := hflat key (mem_keysFrom_iff.2 h)
    obtain ⟨hne, hclose, before, after, -, htext⟩ := h
    exact ⟨hne, ⟨hopen, hclose⟩, before, after, htext⟩
  · intro h
    obtain ⟨found, hmem, rfl | hsuffix⟩ := h.exists_found
    · exact mem_keysFrom_iff.1 hmem
    · exact absurd (hsuffix.subset List.mem_cons_self) (hflat found hmem)

/-! ## What filling in takes away -/

theorem Flat.braceFree (hkey : '\x7d' ∉ key) (h : Flat (placeholder key ++ rest)) :
    BraceFree key := by
  refine ⟨?_, hkey⟩
  by_cases hempty : key = []
  · simp [hempty]
  · refine h key ?_
    rw [keysFrom_placeholder hkey, if_neg hempty]
    exact List.mem_cons_self

theorem replaceFrom_unclosed (htext : '\x7d' ∉ text) :
    replaceFrom (placeholder key) value 0 text = text := by
  induction text with
  | nil => rfl
  | cons c rest ih =>
    have hother : ¬ placeholder key <+: c :: rest := by
      intro hstarts
      exact htext (hstarts.subset (by simp [placeholder]))
    simp only [List.mem_cons, not_or] at htext
    rw [replaceFrom_of_ne hother, ih htext.2]

/-- The placeholder of another key stays. -/
theorem replaceFrom_other {other : List Char} (hkey : '\x7d' ∉ key) (hother : BraceFree other)
    (hne : key ≠ other) : replaceFrom (placeholder key) value 0 (placeholder other ++ rest) =
      placeholder other ++ replaceFrom (placeholder key) value 0 rest := by
  have hhere : ¬ placeholder key <+: '\x7b' :: (other ++ ['\x7d'] ++ rest) := by
    rintro ⟨after, hafter⟩
    rw [placeholder_append, List.append_assoc, List.cons.injEq] at hafter
    exact hne (eq_of_closed hkey hother.2 hafter.2).1
  have htext : placeholder other ++ rest = '\x7b' :: (other ++ ['\x7d'] ++ rest) := rfl
  rw [htext, replaceFrom_of_ne hhere, replaceFrom_plain _ _ _ (by simp [hother.1])]
  rfl

/-- A value without braces takes the key of its parameter away, and no other. -/
theorem keysFrom_replaceFrom (hkey : BraceFree key) (hvalue : '\x7b' ∉ value) (h : Flat text) :
    keysFrom none (replaceFrom (placeholder key) value 0 text) =
      (keysFrom none text).filter (· ≠ key) := by
  induction text using brace_induction with
  | nil => rfl
  | character c rest hc ih =>
    have hplain : '\x7b' ∉ [c] := by simpa using Ne.symm hc
    have hother := not_placeholder_prefix hc key rest
    rw [replaceFrom_of_ne hother, keysFrom_character hc, keysFrom_character hc,
      ih ((flat_plain_iff hplain).1 h)]
  | braces found rest hfound ih =>
    have hrest := ih (h.of_placeholder hfound)
    by_cases hsame : key = found
    · subst hsame
      rw [replaceFrom_placeholder, keysFrom_plain hvalue, hrest, keysFrom_placeholder hfound]
      split
      · rfl
      · simp
    · rw [replaceFrom_other hkey.2 (h.braceFree hfound) hsame, keysFrom_placeholder hfound,
        keysFrom_placeholder hfound, hrest]
      split
      · rfl
      · simp [Ne.symm hsame]
  | unclosed rest hrest =>
    have htext : '\x7d' ∉ '\x7b' :: rest := by simpa using hrest
    rw [replaceFrom_unclosed htext, keysFrom_unclosed none htext, List.filter_nil]

/-- Values without braces take the keys of the parameters away, and no others. -/
theorem keysFrom_foldl_fill (hkeys : ∀ param ∈ params, BraceFree param.1.toList)
    (hvalues : ∀ param ∈ params, BraceFree param.2.toList) (h : Flat text) :
    keysFrom none (params.foldl fill text) =
      (keysFrom none text).filter fun key => ¬ Given params key := by
  induction params generalizing text with
  | nil => simp [Given]
  | cons param params ih =>
    rw [List.forall_mem_cons] at hkeys hvalues
    have hfill := keysFrom_replaceFrom hkeys.1 hvalues.1.1 h
    have hflat : Flat (fill text param) := by
      intro key hmem
      rw [fill, hfill] at hmem
      exact h key (List.mem_of_mem_filter hmem)
    rw [List.foldl_cons, ih hkeys.2 hvalues.2 hflat, fill, hfill, List.filter_filter]
    refine List.filter_congr fun key _ => ?_
    have hgiven : Given (param :: params) key ↔ param.1.toList = key ∨ Given params key :=
      List.exists_mem_cons_iff _ _ _
    simp only [hgiven, not_or, Bool.decide_and, ne_eq, eq_comm (a := key)]
    exact Bool.and_comm _ _

/-! ## What becomes of a placeholder -/

/-- A placeholder does not reach over an opening brace, so the text before one is filled in by
itself. -/
theorem replaceFrom_append_brace (hkey : '\x7b' ∉ key) (text rest : List Char) :
    replaceFrom (placeholder key) value 0 (text ++ '\x7b' :: rest) =
      replaceFrom (placeholder key) value 0 text ++
        replaceFrom (placeholder key) value 0 ('\x7b' :: rest) := by
  induction hn : text.length using Nat.strong_induction_on generalizing text with
  | _ n ih =>
  by_cases hhere : placeholder key <+: text
  · obtain ⟨text', rfl⟩ := hhere
    have hlt : text'.length < n := by
      simp only [placeholder, List.length_append, List.length_cons] at hn
      omega
    rw [List.append_assoc, replaceFrom_placeholder, replaceFrom_placeholder,
      ih text'.length hlt text' rfl, List.append_assoc]
  · cases text with
    | nil => rfl
    | cons c text =>
      have hother : ¬ placeholder key <+: c :: (text ++ '\x7b' :: rest) := by
        rintro ⟨after, hafter⟩
        rw [← List.cons_append] at hafter
        -- the brace would be one of the placeholder, and not the first one
        rcases List.append_eq_append_iff.1 hafter with
          ⟨text', htext, -⟩ | ⟨part, hpart, hrest⟩
        · exact hhere ⟨text', htext.symm⟩
        · cases part with
          | nil => exact hhere ⟨[], by rw [hpart, List.append_nil, List.append_nil]⟩
          | cons brace part =>
            obtain ⟨rfl, -⟩ := List.cons.inj hrest
            have htail : key ++ ['\x7d'] = text ++ '\x7b' :: part := (List.cons.inj hpart).2
            have hmem : '\x7b' ∈ key ++ ['\x7d'] := by
              rw [htail]
              exact List.mem_append_right _ List.mem_cons_self
            simp [hkey] at hmem
      have hlt : text.length < n := by
        simp only [List.length_cons] at hn
        omega
      rw [List.cons_append, replaceFrom_of_ne hother, replaceFrom_of_ne hhere,
        ih text.length hlt text rfl, List.cons_append]

/-- The placeholder of a parameter gives way to the value, whatever stands on either side. -/
theorem fill_own {param : String × String} (hkey : '\x7b' ∉ param.1.toList)
    (before after : List Char) :
    fill (before ++ (placeholder param.1.toList ++ after)) param =
      fill before param ++ (param.2.toList ++ fill after param) := by
  unfold fill
  rw [placeholder_append, replaceFrom_append_brace hkey, ← placeholder_append,
    replaceFrom_placeholder]

/-- The placeholder of another key stays, whatever stands on either side. -/
theorem fill_other {param : String × String} (hparam : BraceFree param.1.toList)
    (hkey : BraceFree key) (hne : param.1.toList ≠ key) (before after : List Char) :
    fill (before ++ (placeholder key ++ after)) param =
      fill before param ++ (placeholder key ++ fill after param) := by
  unfold fill
  rw [placeholder_append, replaceFrom_append_brace hparam.1, ← placeholder_append,
    replaceFrom_other hparam.2 hkey hne]

/-- The placeholder between the two texts stays where it is. -/
def Stays (params : List (String × String)) (before key after out : List Char) : Prop :=
  out = params.foldl fill before ++ (placeholder key ++ params.foldl fill after)

/-- The placeholder between the two texts gives way to the value of the first parameter that has
its key. The later parameters are then filled in, also into the value. -/
def GivesWay (params : List (String × String)) (before key after out : List Char) : Prop :=
  ∃ earlier value later, params = earlier ++ (String.ofList key, value) :: later ∧
    ¬ Given earlier key ∧
    out = later.foldl fill (fill (earlier.foldl fill before) (String.ofList key, value) ++
      (value.toList ++ fill (earlier.foldl fill after) (String.ofList key, value)))

/-- Each placeholder of the template gives way if its key is given, and stays if it is not. -/
def Settles (params : List (String × String)) (template out : List Char) : Prop :=
  ∀ before key after, key ≠ [] → BraceFree key → template = before ++ (placeholder key ++ after) →
    (Given params key → GivesWay params before key after out) ∧
    (¬ Given params key → Stays params before key after out)

theorem foldl_fill_stays (hkeys : ∀ param ∈ params, BraceFree param.1.toList)
    (hkey : BraceFree key) (hother : ¬ Given params key) (before after : List Char) :
    Stays params before key after (params.foldl fill (before ++ (placeholder key ++ after))) := by
  unfold Stays
  induction params generalizing before after with
  | nil => rfl
  | cons param params ih =>
    rw [List.forall_mem_cons] at hkeys
    have hne : param.1.toList ≠ key := fun h => hother ⟨param, List.mem_cons_self, h⟩
    have hothers : ¬ Given params key :=
      fun ⟨later, hmem, h⟩ => hother ⟨later, List.mem_cons_of_mem _ hmem, h⟩
    rw [List.foldl_cons, fill_other hkeys.1 hkey hne, ih hkeys.2 hothers]
    rfl

/-- The first parameter that has a key. -/
theorem Given.exists_first (h : Given params key) : ∃ earlier value later,
    params = earlier ++ (String.ofList key, value) :: later ∧ ¬ Given earlier key := by
  obtain ⟨param, hmem, hparam⟩ := h
  obtain ⟨first, hfirst⟩ : ∃ first, params.find? (·.1.toList = key) = some first :=
    Option.isSome_iff_exists.1 (List.find?_isSome.2 ⟨param, hmem, decide_eq_true hparam⟩)
  obtain ⟨hkey, earlier, later, rfl, hearlier⟩ := List.find?_eq_some_iff_append.1 hfirst
  refine ⟨earlier, first.2, later, ?_, ?_⟩
  · rw [← of_decide_eq_true hkey, String.ofList_toList]
  · rintro ⟨other, hother, hsame⟩
    simpa [hsame] using hearlier other hother

theorem foldl_fill_givesWay (hkeys : ∀ param ∈ params, BraceFree param.1.toList)
    (hgiven : Given params key) (before after : List Char) :
    GivesWay params before key after
      (params.foldl fill (before ++ (placeholder key ++ after))) := by
  obtain ⟨earlier, value, later, rfl, hearlier⟩ := hgiven.exists_first
  have hkey : BraceFree key := by
    simpa using hkeys (String.ofList key, value) (by simp)
  have hstays := foldl_fill_stays (fun param hmem => hkeys param (List.mem_append_left _ hmem)) hkey
    hearlier before after
  have hopen : '\x7b' ∉ (String.ofList key, value).1.toList := by simpa using hkey.1
  have hown := fill_own hopen (earlier.foldl fill before) (earlier.foldl fill after)
  rw [String.toList_ofList] at hown
  refine ⟨earlier, value, later, rfl, hearlier, ?_⟩
  rw [List.foldl_append, List.foldl_cons, hstays, hown]

theorem foldl_fill_settles (hkeys : ∀ param ∈ params, BraceFree param.1.toList)
    (text : List Char) : Settles params text (params.foldl fill text) := by
  rintro before key after - hkey rfl
  exact ⟨fun hgiven => foldl_fill_givesWay hkeys hgiven before after,
    fun hother => foldl_fill_stays hkeys hkey hother before after⟩

/-- Values without braces leave a flat text with the placeholders that have no parameter. -/
theorem shows_foldl_fill (hkeys : ∀ param ∈ params, BraceFree param.1.toList)
    (hvalues : ∀ param ∈ params, BraceFree param.2.toList) (hflat : Flat text) :
    Shows (params.foldl fill text) key ↔ Shows text key ∧ ¬ Given params key := by
  have hfound := keysFrom_foldl_fill hkeys hvalues hflat
  have hfilled : Flat (params.foldl fill text) := by
    intro found hmem
    rw [hfound] at hmem
    exact hflat found (List.mem_of_mem_filter hmem)
  rw [← encloses_iff_shows hfilled, ← encloses_iff_shows hflat, ← mem_keysFrom_iff, hfound,
    List.mem_filter, decide_eq_true_iff, mem_keysFrom_iff]

end Template

namespace Draft

open Template

variable {d : Draft}

/-- Something stands in braces in the message that is the key of no parameter. -/
def LacksParam (d : Draft) : Prop :=
  ∃ key, Encloses d.messageTemplate.toList key ∧ ¬ Given d.params key

/-- The diagnostic with the parameters filled in, no matter which are missing. -/
def filledIn (d : Draft) : Diagnostic where
  severity := d.severity
  code := d.code
  message := render d.params d.messageTemplate
  help := render d.params d.helpTemplate
  location := d.location
  resource := d.resource

theorem any_eq_ofList_iff (params : List (String × String)) (key : List Char) :
    params.any (·.1 == String.ofList key) = true ↔ Given params key := by
  simp only [List.any_eq_true, beq_iff_eq, Given, ← String.toList_inj, String.toList_ofList]

theorem missingParams_eq_nil_iff : d.missingParams = [] ↔ ¬ d.LacksParam := by
  unfold missingParams keys LacksParam
  simp only [List.filter_eq_nil_iff, List.forall_mem_map, Bool.not_eq_true', Bool.not_eq_false,
    any_eq_ofList_iff, mem_keysFrom_iff, not_exists, not_and, not_not]

theorem build_of_lacksParam (h : d.LacksParam) : d.build = d.incomplete := by
  unfold build
  rw [if_neg]
  rw [List.isEmpty_iff, missingParams_eq_nil_iff]
  exact not_not_intro h

theorem build_of_not_lacksParam (h : ¬ d.LacksParam) : d.build = d.filledIn := by
  unfold build
  rw [missingParams_eq_nil_iff.2 h]
  rfl

theorem lacksParam_iff_shows (hflat : Flat d.messageTemplate.toList) :
    d.LacksParam ↔ ∃ key, Shows d.messageTemplate.toList key ∧ ¬ Given d.params key := by
  simp only [LacksParam, encloses_iff_shows hflat]

/-- When a draft gives the internal diagnostic, and what becomes of placeholders when it does not.

It does if and only if something stands in braces in the message that is no parameter's key. In a
flat message these are the placeholders. With keys that have no braces, a message that is not flat
always lacks a parameter, and when none is lacking every placeholder of the message has its
parameter and gives way to the value. The help text has no say in this: its placeholders give way
if they have a parameter, and stay if they have none. -/
theorem build_parameters (d : Draft) :
    (d.LacksParam → d.build = d.incomplete) ∧ (¬ d.LacksParam → d.build = d.filledIn) ∧
    (Flat d.messageTemplate.toList →
      (d.LacksParam ↔ ∃ key, Shows d.messageTemplate.toList key ∧ ¬ Given d.params key)) ∧
    ((∀ param ∈ d.params, BraceFree param.1.toList) →
      (d.LacksParam ↔ ¬ Flat d.messageTemplate.toList ∨
        ∃ key, Shows d.messageTemplate.toList key ∧ ¬ Given d.params key) ∧
      (¬ d.LacksParam →
        (∀ key, Shows d.messageTemplate.toList key → Given d.params key) ∧
        Settles d.params d.messageTemplate.toList d.build.message.toList ∧
        Settles d.params d.helpTemplate.toList d.build.help.toList ∧
        ((∀ param ∈ d.params, BraceFree param.2.toList) →
          (∀ key, ¬ Shows d.build.message.toList key) ∧
          (Flat d.helpTemplate.toList → ∀ key, Shows d.build.help.toList key ↔
            Shows d.helpTemplate.toList key ∧ ¬ Given d.params key)))) := by
  refine ⟨build_of_lacksParam, build_of_not_lacksParam, lacksParam_iff_shows, ?_⟩
  intro hkeys
  have hflat : ¬ d.LacksParam → Flat d.messageTemplate.toList :=
    fun h => flat_message hkeys (missingParams_eq_nil_iff.2 h)
  refine ⟨?_, ?_⟩
  · constructor
    · intro hlacks
      by_cases h : Flat d.messageTemplate.toList
      · exact .inr ((lacksParam_iff_shows h).1 hlacks)
      · exact .inl h
    · intro h
      by_contra hlacks
      rcases h with h | h
      · exact h (hflat hlacks)
      · exact hlacks ((lacksParam_iff_shows (hflat hlacks)).2 h)
  · intro hlacks
    have hcomplete := missingParams_eq_nil_iff.2 hlacks
    have hgiven : ∀ key, Shows d.messageTemplate.toList key → Given d.params key := by
      intro key hkey
      by_contra hother
      exact hlacks ((lacksParam_iff_shows (hflat hlacks)).2 ⟨key, hkey, hother⟩)
    rw [build_message hcomplete, build_help hcomplete]
    refine ⟨hgiven, foldl_fill_settles hkeys _, foldl_fill_settles hkeys _, ?_⟩
    intro hvalues
    refine ⟨?_, fun hhelp key => shows_foldl_fill hkeys hvalues hhelp⟩
    intro key hkey
    obtain ⟨hshown, hother⟩ := (shows_foldl_fill hkeys hvalues (hflat hlacks)).1 hkey
    exact hother (hgiven key hshown)

/-- A leak of a kind whose name has no braces. -/
theorem build_parameters_of_leaked :
    let d := FindingKind.leaked.draft "Parcel"
    (∀ key, ¬ Shows d.build.message.toList key) ∧ ∀ key, ¬ Shows d.build.help.toList key := by
  intro d
  have hlacks : ¬ d.LacksParam :=
    missingParams_eq_nil_iff.1 (FindingKind.leaked.missingParams_draft "Parcel")
  obtain ⟨-, -, -, hcomplete⟩ := build_parameters d
  obtain ⟨-, -, -, hshown⟩ := (hcomplete (by decide)).2 hlacks
  have hhelp : Flat d.helpTemplate.toList := by decide
  have hgiven : ∀ key ∈ keysFrom none d.helpTemplate.toList, Given d.params key := by decide
  refine ⟨(hshown (by decide)).1, ?_⟩
  intro key hkey
  obtain ⟨hother, hmissing⟩ := ((hshown (by decide)).2 hhelp key).1 hkey
  exact hmissing (hgiven key (mem_keysFrom_iff.2 ((encloses_iff_shows hhelp).2 hother)))

/-- A help text can lack a parameter and is shown with its placeholder. A message in which every
placeholder has a parameter, and which could be filled in, can give the internal diagnostic because
of a brace around one. -/
theorem build_overlooks :
    (let d := Draft.new "R0001" "This leaks" "recycle the \x7bkind\x7d"
     Shows d.helpTemplate.toList "kind".toList ∧ ¬ Given d.params "kind".toList ∧
       d.build.code = "R0001" ∧ d.build.help = "recycle the \x7bkind\x7d") ∧
    (let d := (Draft.new "R0001" "\x7b\x7bkind\x7d\x7d" "").param "kind" "Parcel"
     (∀ key, Shows d.messageTemplate.toList key ∨ Shows d.helpTemplate.toList key →
        Given d.params key) ∧
       d.filledIn.message = "\x7bParcel\x7d" ∧ d.build = d.incomplete ∧
       d.build.code = "R9001") := by
  refine ⟨⟨⟨by decide, by decide, "recycle the ".toList, [], rfl⟩, by decide, by decide,
    by decide⟩, ?_, by decide, by decide, by decide⟩
  intro key hkey
  rcases hkey with hkey | hkey
  · obtain ⟨found, hmem, hsame⟩ := hkey.exists_found
    obtain rfl : found = "\x7bkind".toList := List.mem_singleton.1 hmem
    rcases hsame with rfl | hsuffix
    · exact absurd hkey.2.1.1 (by decide)
    · have htails : ∀ tail ∈ "\x7bkind".toList.tails, '\x7b' ∈ tail →
          tail = "\x7bkind".toList := by
        decide
      have hkind := htails _ ((List.mem_tails _ _).2 hsuffix) List.mem_cons_self
      rw [(List.cons.inj hkind).2]
      decide
  · obtain ⟨found, hmem, -⟩ := hkey.exists_found
    cases hmem

end Draft

end PoolLint

import Mathlib.Data.List.Basic
import PoolLint.Bytecode.Descriptor

/-!
# The grammar of method descriptors

A descriptor lists parameter types between parentheses and a result after them
(`Descriptor.Denotes`). The types are a prefix code, and no type in the list contains the closing
parenthesis, so that a text can be read in one way at most (`Denotes.unique`).

The parameters are counted in one scan with three states. What a state stands for is the text that
completes the type at hand (`Completes`), and with it the scan can be said to accept exactly the
texts that go on with whole types (`countFrom_eq_some_iff`).

So a call takes as many values as its descriptor lists types, and the receiver
(`CallSite.argCount?_eq_some_iff`). Whether it pushes a result is read off the end of its descriptor
and not from the scan; where the result has no further parenthesis, the two agree
(`returnsValue_eq_false_iff`).
-/

namespace PoolLint

open PoolLint.Bytecode

namespace Bytecode

namespace Descriptor

/-! ## Types and lists of types -/

/-- The text of a parameter type: one of eight letters, a class name between `L` and `;`, or an
array of either. -/
inductive ParameterType : List Char → Prop
  | primitive {c : Char} (letter : c ∈ ['B', 'C', 'D', 'F', 'I', 'J', 'S', 'Z']) :
      ParameterType [c]
  | object {name : List Char} (open_ : ';' ∉ name) : ParameterType ('L' :: (name ++ [';']))
  | array {t : List Char} (element : ParameterType t) : ParameterType ('[' :: t)

/-- The descriptor lists these parameter types and this result. -/
structure Denotes (desc : String) (types : List (List Char)) (result : List Char) : Prop where
  text : desc.toList = '(' :: (types.flatten ++ ')' :: result)
  wellFormed : ∀ t ∈ types, ParameterType t
  closes : ')' ∉ types.flatten

/-- A text is split at the first occurrence of a character in one way only. -/
theorem eq_of_split {c : Char} {xs ys rest rest' : List Char} (hx : c ∉ xs) (hy : c ∉ ys)
    (h : xs ++ c :: rest = ys ++ c :: rest') : xs = ys ∧ rest = rest' := by
  induction xs generalizing ys with
  | nil =>
    cases ys with
    | nil => exact ⟨rfl, (List.cons.inj h).2⟩
    | cons y ys =>
      obtain ⟨rfl, -⟩ := List.cons.inj h
      exact absurd List.mem_cons_self hy
  | cons x xs ih =>
    cases ys with
    | nil =>
      obtain ⟨rfl, -⟩ := List.cons.inj h
      exact absurd List.mem_cons_self hx
    | cons y ys =>
      obtain ⟨rfl, htail⟩ := List.cons.inj h
      obtain ⟨rfl, hrest⟩ :=
        ih (mt (List.mem_cons_of_mem _) hx) (mt (List.mem_cons_of_mem _) hy) htail
      exact ⟨rfl, hrest⟩

theorem ParameterType.ne_nil {t : List Char} (h : ParameterType t) : t ≠ [] := by
  cases h <;> exact List.cons_ne_nil _ _

/-- Where two types begin a text, they are the same. -/
theorem ParameterType.append_inj {t t' rest rest' : List Char} (h : ParameterType t)
    (h' : ParameterType t') (heq : t ++ rest = t' ++ rest') : t = t' ∧ rest = rest' := by
  induction h generalizing t' with
  | @primitive c letter =>
    cases h' with
    | primitive =>
      obtain ⟨rfl, rfl⟩ := List.cons.inj heq
      exact ⟨rfl, rfl⟩
    | object | array =>
      obtain ⟨rfl, -⟩ := List.cons.inj heq
      exact absurd letter (by decide)
  | object hopen =>
    cases h' with
    | primitive letter =>
      obtain ⟨rfl, -⟩ := List.cons.inj heq
      exact absurd letter (by decide)
    | object hopen' =>
      rw [List.cons_append, List.cons_append, List.append_assoc, List.append_assoc] at heq
      obtain ⟨rfl, rfl⟩ := eq_of_split hopen hopen' (List.cons.inj heq).2
      exact ⟨rfl, rfl⟩
    | array => cases heq
  | array element ih =>
    cases h' with
    | primitive letter =>
      obtain ⟨rfl, -⟩ := List.cons.inj heq
      exact absurd letter (by decide)
    | object => cases heq
    | array element' =>
      obtain ⟨-, heq⟩ := List.cons.inj heq
      obtain ⟨rfl, rfl⟩ := ih element' heq
      exact ⟨rfl, rfl⟩

/-- A text is a sequence of types in one way at most. -/
theorem eq_of_flatten_eq {types types' : List (List Char)} (h : ∀ t ∈ types, ParameterType t)
    (h' : ∀ t ∈ types', ParameterType t) (heq : types.flatten = types'.flatten) :
    types = types' := by
  induction types generalizing types' with
  | nil =>
    cases types' with
    | nil => rfl
    | cons t' types' =>
      have hempty := (List.append_eq_nil_iff.1 heq.symm).1
      exact absurd hempty (h' t' List.mem_cons_self).ne_nil
  | cons t types ih =>
    cases types' with
    | nil =>
      have hempty := (List.append_eq_nil_iff.1 heq).1
      exact absurd hempty (h t List.mem_cons_self).ne_nil
    | cons t' types' =>
      obtain ⟨rfl, hrest⟩ :=
        (h t List.mem_cons_self).append_inj (h' t' List.mem_cons_self) heq
      rw [ih (fun u hu => h u (List.mem_cons_of_mem _ hu))
        (fun u hu => h' u (List.mem_cons_of_mem _ hu)) hrest]

section Denotes

variable {desc : String} {types types' : List (List Char)} {result result' : List Char}

/-- The list of types ends at the first closing parenthesis, so it can be told from the text. -/
theorem Denotes.unique (h : Denotes desc types result) (h' : Denotes desc types' result') :
    types = types' ∧ result = result' := by
  obtain ⟨-, heq⟩ := List.cons.inj (h.text.symm.trans h'.text)
  obtain ⟨hflatten, hresult⟩ := eq_of_split h.closes h'.closes heq
  exact ⟨eq_of_flatten_eq h.wellFormed h'.wellFormed hflatten, hresult⟩

end Denotes

/-! ## The scan -/

/-- What is left of the type that a scan is in. -/
inductive Completes : Cursor → List Char → Prop
  | between : Completes .between []
  | element {t : List Char} (type : ParameterType t) : Completes .element t
  | className {name : List Char} (open_ : ';' ∉ name) : Completes .className (name ++ [';'])

/-- The number of types that a scan has begun to read. -/
def Cursor.begun : Cursor → Nat
  | between => 0
  | element | className => 1

section Scan

variable {cursor : Cursor} {cs : List Char} {seen n : Nat}

/-- A class name ends at the first semicolon. -/
theorem countFrom_className {name : List Char} (h : ';' ∉ name) (seen : Nat) (rest : List Char) :
    countFrom .className seen (name ++ ';' :: rest) = countFrom .between (seen + 1) rest := by
  induction name with
  | nil => rfl
  | cons c name ih =>
    obtain ⟨hc, hname⟩ := not_or.1 (mt List.mem_cons.2 h)
    rw [List.cons_append, countFrom, if_neg (Ne.symm hc), ih hname]

/-- Where a type may begin, a bracket is followed by the type of the elements, an `L` by a class
name, and a letter is a type of its own. -/
theorem countFrom_begin {c : Char} {rest : List Char} (hcursor : cursor ≠ .className) :
    countFrom cursor seen (c :: rest) =
      if c = '[' then countFrom .element seen rest
      else if c = 'L' then countFrom .className seen rest
      else if isPrimitive c then countFrom .between (seen + 1) rest
      else none := by
  cases cursor with
  | className => exact absurd rfl hcursor
  | between | element => rfl

/-- The scan takes the letters of the grammar for primitive types. -/
theorem isPrimitive_iff {c : Char} :
    isPrimitive c = true ↔ c ∈ ['B', 'C', 'D', 'F', 'I', 'J', 'S', 'Z'] :=
  decide_eq_true_iff

/-- The scan reads a type where one may begin. -/
theorem countFrom_type {t : List Char} (h : ParameterType t) (hcursor : cursor ≠ .className)
    (seen : Nat) (rest : List Char) :
    countFrom cursor seen (t ++ rest) = countFrom .between (seen + 1) rest := by
  induction h generalizing cursor with
  | @primitive c letter =>
    have harray : c ≠ '[' := ne_of_mem_of_not_mem letter (by decide)
    have hobject : c ≠ 'L' := ne_of_mem_of_not_mem letter (by decide)
    rw [List.singleton_append, countFrom_begin hcursor, if_neg harray, if_neg hobject,
      if_pos (isPrimitive_iff.2 letter)]
  | object hopen =>
    rw [List.cons_append, List.append_assoc, countFrom_begin hcursor, if_neg (by decide),
      if_pos rfl]
    exact countFrom_className hopen seen rest
  | array element ih =>
    rw [List.cons_append, countFrom_begin hcursor, if_pos rfl]
    exact ih (by decide)

/-- The scan reads any number of types. -/
theorem countFrom_types {types : List (List Char)} (h : ∀ t ∈ types, ParameterType t)
    (seen : Nat) : countFrom .between seen types.flatten = some (seen + types.length) := by
  induction types generalizing seen with
  | nil => rfl
  | cons t types ih =>
    rw [List.flatten_cons, countFrom_type (h t List.mem_cons_self) (by decide),
      ih fun u hu => h u (List.mem_cons_of_mem _ hu)]
    congr 1
    rw [List.length_cons]
    omega

/-- The scan reads what completes the type at hand. -/
theorem countFrom_completes {t : List Char} (h : Completes cursor t) (seen : Nat)
    (rest : List Char) :
    countFrom cursor seen (t ++ rest) = countFrom .between (seen + cursor.begun) rest := by
  cases h with
  | between => rfl
  | element type => exact countFrom_type type (by decide) seen rest
  | className hopen =>
    rw [List.append_assoc]
    exact countFrom_className hopen seen rest

/-- Where a type may begin, what starts with a type completes the type at hand. -/
theorem exists_completes {u : List Char} (hu : ParameterType u) (hcursor : cursor ≠ .className)
    {types : List (List Char)} (htypes : ∀ t ∈ types, ParameterType t) :
    ∃ (t : List Char) (types' : List (List Char)), Completes cursor t ∧
      (∀ t' ∈ types', ParameterType t') ∧ u ++ types.flatten = t ++ types'.flatten ∧
        cursor.begun + types'.length = 1 + types.length := by
  cases cursor with
  | className => exact absurd rfl hcursor
  | between =>
    refine ⟨[], u :: types, .between, List.forall_mem_cons.2 ⟨hu, htypes⟩, rfl, ?_⟩
    rw [List.length_cons, Cursor.begun]
    omega
  | element => exact ⟨u, types, .element hu, htypes, rfl, rfl⟩

/-- What a scan accepts completes the type at hand and goes on with whole types. -/
theorem completes_of_countFrom (h : countFrom cursor seen cs = some n) :
    ∃ (t : List Char) (types : List (List Char)), Completes cursor t ∧
      (∀ t' ∈ types, ParameterType t') ∧ cs = t ++ types.flatten ∧
        n = seen + cursor.begun + types.length := by
  induction cs generalizing cursor seen with
  | nil =>
    unfold countFrom at h
    split_ifs at h with hcursor
    obtain rfl := Option.some.inj h
    subst hcursor
    exact ⟨[], [], .between, fun _ => nofun, rfl, rfl⟩
  | cons c rest ih =>
    by_cases hcursor : cursor = .className
    · subst hcursor
      unfold countFrom at h
      simp only at h
      split_ifs at h with hc
      · obtain ⟨t, types, hbetween, htypes, rfl, rfl⟩ := ih h
        cases hbetween
        subst hc
        exact ⟨[';'], types, .className List.not_mem_nil, htypes, rfl, rfl⟩
      · obtain ⟨t, types, hname, htypes, rfl, rfl⟩ := ih h
        cases hname with
        | @className name hopen =>
          refine ⟨c :: name ++ [';'], types, .className ?_, htypes, rfl, rfl⟩
          exact mt List.mem_cons.1 (not_or.2 ⟨Ne.symm hc, hopen⟩)
    · -- a type begins here, and what follows completes it
      suffices htype : ∃ (u : List Char) (types : List (List Char)), ParameterType u ∧
          (∀ t ∈ types, ParameterType t) ∧ c :: rest = u ++ types.flatten ∧
            n = seen + 1 + types.length by
        obtain ⟨u, types, hu, htypes, heq, rfl⟩ := htype
        obtain ⟨t, types', ht, htypes', htext, hcount⟩ := exists_completes hu hcursor htypes
        exact ⟨t, types', ht, htypes', heq.trans htext, by omega⟩
      rw [countFrom_begin hcursor] at h
      split_ifs at h with harray hobject hletter
      · obtain ⟨t, types, helement, htypes, rfl, rfl⟩ := ih h
        cases helement with
        | element type =>
          subst harray
          exact ⟨'[' :: t, types, .array type, htypes, rfl, rfl⟩
      · obtain ⟨t, types, hname, htypes, rfl, rfl⟩ := ih h
        cases hname with
        | @className name hopen =>
          subst hobject
          exact ⟨'L' :: (name ++ [';']), types, .object hopen, htypes, rfl, rfl⟩
      · obtain ⟨t, types, hbetween, htypes, rfl, rfl⟩ := ih h
        cases hbetween
        exact ⟨[c], types, .primitive (isPrimitive_iff.1 hletter), htypes, rfl, rfl⟩

/-- A scan accepts what completes the type at hand and goes on with whole types, and counts
these. -/
theorem countFrom_eq_some_iff : countFrom cursor seen cs = some n ↔
    ∃ (t : List Char) (types : List (List Char)), Completes cursor t ∧
      (∀ t' ∈ types, ParameterType t') ∧ cs = t ++ types.flatten ∧
        n = seen + cursor.begun + types.length := by
  refine ⟨completes_of_countFrom, ?_⟩
  rintro ⟨t, types, ht, htypes, rfl, rfl⟩
  rw [countFrom_completes ht, countFrom_types htypes]

end Scan

/-! ## Descriptors -/

section Descriptors

variable {desc : String} {types : List (List Char)} {result : List Char} {n : Nat}

/-- Up to the first closing parenthesis no character is one. -/
theorem takeWhile_of_closes {params : List Char} (h : ')' ∉ params) (result : List Char) :
    (params ++ ')' :: result).takeWhile (· != ')') = params := by
  have hkept : ∀ c ∈ params, (c != ')') = true := by
    intro c hc
    exact bne_iff_ne.2 (ne_of_mem_of_not_mem hc h)
  rw [List.takeWhile_append_of_pos hkept, List.takeWhile_cons_of_neg (by decide),
    List.append_nil]

/-- The parameters are what stands between the opening parenthesis and the first closing one. -/
theorem parameterText?_eq_some_iff {text params : List Char} :
    parameterText? text = some params ↔
      ∃ result, text = '(' :: (params ++ ')' :: result) ∧ ')' ∉ params := by
  constructor
  · intro h
    unfold parameterText? at h
    split at h
    · rename_i rest
      split_ifs at h with hcloses
      obtain ⟨before, result, rfl, hbefore⟩ := List.eq_append_cons_of_mem hcloses
      rw [takeWhile_of_closes hbefore] at h
      obtain rfl := Option.some.inj h
      exact ⟨result, rfl, hbefore⟩
    · cases h
  · rintro ⟨result, rfl, hparams⟩
    have hcloses : ')' ∈ params ++ ')' :: result :=
      List.mem_append_right _ List.mem_cons_self
    rw [parameterText?, if_pos hcloses, takeWhile_of_closes hparams]

/-- The parameters of a descriptor are counted exactly if it lists well-formed types. -/
theorem paramCount?_eq_some_iff : paramCount? desc = some n ↔
    ∃ types result, Denotes desc types result ∧ types.length = n := by
  unfold paramCount?
  rw [Option.bind_eq_some_iff]
  constructor
  · rintro ⟨params, hparams, hcount⟩
    obtain ⟨result, htext, hcloses⟩ := parameterText?_eq_some_iff.1 hparams
    obtain ⟨t, types, hbetween, htypes, rfl, rfl⟩ := countFrom_eq_some_iff.1 hcount
    cases hbetween
    refine ⟨types, result, ⟨htext, htypes, hcloses⟩, ?_⟩
    rw [Cursor.begun]
    omega
  · rintro ⟨types, result, h, rfl⟩
    refine ⟨types.flatten, parameterText?_eq_some_iff.2 ⟨result, h.text, h.closes⟩, ?_⟩
    rw [countFrom_types h.wellFormed, Nat.zero_add]

/-- Where the result has no further parenthesis, the end of the text tells whether it is `V`. -/
theorem void_suffix_iff (h : Denotes desc types result) (hresult : ')' ∉ result) :
    [')', 'V'] <:+ desc.toList ↔ result = ['V'] := by
  rw [h.text]
  constructor
  · rintro ⟨before, hbefore⟩
    -- read backwards, both sides are split at the last closing parenthesis
    have hreversed : ['V'] ++ ')' :: before.reverse =
        result.reverse ++ ')' :: (types.flatten.reverse ++ ['(']) := by
      simpa using congrArg List.reverse hbefore
    have hletter : ')' ∉ ['V'] := by decide
    obtain ⟨hresult', -⟩ := eq_of_split hletter (mt List.mem_reverse.1 hresult) hreversed
    exact List.reverse_eq_iff.1 hresult'.symm
  · rintro rfl
    exact ⟨'(' :: types.flatten, rfl⟩

theorem returnsValue_iff : returnsValue desc = true ↔ ¬[')', 'V'] <:+ desc.toList := by
  unfold returnsValue
  rw [Bool.not_eq_true', ← Bool.not_eq_true, List.isSuffixOf_iff_suffix]

/-- A call leaves a value on the stack unless the result is `V`. -/
theorem returnsValue_eq_false_iff (h : Denotes desc types result) (hresult : ')' ∉ result) :
    returnsValue desc = false ↔ result = ['V'] := by
  rw [← void_suffix_iff h hresult, ← Bool.not_eq_true, returnsValue_iff, Decidable.not_not]

end Descriptors
end Descriptor

/-! ## Calls -/

namespace CallSite

variable {call : CallSite} {count count' : Nat}

/-- A call takes one value for each parameter type of its descriptor, and the receiver unless it is
static. -/
def Takes (call : CallSite) (count : Nat) : Prop :=
  ∃ types result, Descriptor.Denotes call.desc types result ∧
    count = types.length + if call.kind = .static then 0 else 1

theorem receiver_eq (kind : Dispatch) :
    (if kind.hasReceiver then 1 else 0) = if kind = .static then 0 else 1 := by
  cases kind <;> rfl

theorem argCount?_eq_some_iff : call.argCount? = some count ↔ call.Takes count := by
  unfold argCount? paramCount? Takes
  rw [Option.map_eq_some_iff, receiver_eq]
  constructor
  · rintro ⟨n, hn, rfl⟩
    obtain ⟨types, result, h, rfl⟩ := Descriptor.paramCount?_eq_some_iff.1 hn
    exact ⟨types, result, h, rfl⟩
  · rintro ⟨types, result, h, rfl⟩
    exact ⟨types.length, Descriptor.paramCount?_eq_some_iff.2 ⟨types, result, h, rfl⟩, rfl⟩

theorem Takes.unique (h : call.Takes count) (h' : call.Takes count') : count = count' :=
  Option.some.inj ((argCount?_eq_some_iff.2 h).symm.trans (argCount?_eq_some_iff.2 h'))

end CallSite
end Bytecode
end PoolLint

import Mathlib.Data.List.TakeDrop
import PoolLint.Json.Reader
import PoolLint.Proofs.Json.Grammar

/-!
# Texts of the grammar can be read

The scanner cuts a text of the grammar into tokens, and the reader puts the tokens together to the
value that the text denotes (`parse?_of_textOf`). Of the parts of a text the scanner is followed
from one place to the next (`Scans`), so that the parts can be joined in any way.
-/

namespace PoolLint.Json

variable {cs cs' rest : List Char} {c : Char} {v : Json}

/-- Between these places of a text the scanner finds these tokens. -/
def Scans (cs : List Char) (tokens : List Token) (rest : List Char) : Prop :=
  ∀ done, scan done .between cs = scan (tokens.reverse ++ done) .between rest

theorem Scans.trans {tokens tokens' : List Token} (h : Scans cs tokens cs')
    (h' : Scans cs' tokens' rest) : Scans cs (tokens ++ tokens') rest := by
  intro done
  rw [h, h', List.reverse_append, List.append_assoc]

/-- The tokens of a whole text. -/
theorem Scans.tokens? {tokens : List Token} (h : Scans cs tokens []) :
    tokens? cs = some tokens := by
  unfold Json.tokens?
  rw [h, List.append_nil]
  unfold scan finishScan
  rw [List.reverse_reverse]

theorem scan_cons_of_eq {done done' : List Token} {mode mode' : Mode}
    (h : scanChar done mode c = some (done', mode')) :
    scan done mode (c :: rest) = scan done' mode' rest := by
  rw [scan, h]

theorem Scans.blanks (h : Blanks cs rest) : Scans cs [] rest := by
  intro done
  induction h with
  | none => rfl
  | space _ ih => rw [← ih, scan_cons_of_eq rfl]
  | tab _ ih => rw [← ih, scan_cons_of_eq rfl]
  | lineFeed _ ih => rw [← ih, scan_cons_of_eq rfl]
  | carriageReturn _ ih => rw [← ih, scan_cons_of_eq rfl]

/-! ## Words -/

/-- A word ends before this character. -/
def endsWord (c : Char) : Bool :=
  isBlank c || c = '"' || (punctuation? c).isSome

/-- What follows a word does not prolong it. -/
def Delimited (rest : List Char) : Prop :=
  ∀ c cs, rest = c :: cs → endsWord c = true

theorem delimited_cons (hc : endsWord c = true) (cs : List Char) : Delimited (c :: cs) := by
  intro c' cs' heq
  rwa [← (List.cons.inj heq).1]

theorem delimited_of_blanks (h : Blanks cs rest) (hrest : Delimited rest) : Delimited cs := by
  cases h with
  | none => exact hrest
  | space => exact delimited_cons (by decide) _
  | tab => exact delimited_cons (by decide) _
  | lineFeed => exact delimited_cons (by decide) _
  | carriageReturn => exact delimited_cons (by decide) _

theorem punctuation?_isSome : (punctuation? c).isSome = true →
    c ∈ ['[', ']', '\x7b', '\x7d', ':', ','] := by
  unfold punctuation?
  split <;> simp

/-- A word may hold digits, letters, signs and points. -/
theorem endsWord_eq_false (h : c.isDigit = true ∨ c ∈ ['-', '+', '.', 'e', 'E']) :
    endsWord c = false := by
  rw [Bool.eq_false_iff]
  intro hends
  have hmem : c ∈ [' ', '\t', '\n', '\r', '"'] ++ ['[', ']', '\x7b', '\x7d', ':', ','] := by
    unfold endsWord isBlank at hends
    simp only [Bool.or_eq_true, decide_eq_true_eq] at hends
    rcases hends with hends | hpunctuation
    · exact List.mem_append_left _ (by simpa [or_assoc] using hends)
    · exact List.mem_append_right _ (punctuation?_isSome hpunctuation)
  have hnone : ∀ c ∈ [' ', '\t', '\n', '\r', '"'] ++ ['[', ']', '\x7b', '\x7d', ':', ','],
      ¬(c.isDigit = true ∨ c ∈ ['-', '+', '.', 'e', 'E']) := by
    simp [Char.isDigit]
  exact hnone c hmem h

theorem scan_word_append {chars : List Char} (done : List Token)
    (h : ∀ c ∈ cs, endsWord c = false) :
    scan done (.word chars) (cs ++ rest) = scan done (.word (cs.reverse ++ chars)) rest := by
  induction cs generalizing chars with
  | nil => rfl
  | cons c cs ih =>
    have hc : endsWord c = false := h c List.mem_cons_self
    have hstep : scanChar done (.word chars) c = some (done, .word (c :: chars)) := by
      unfold endsWord at hc
      rw [scanChar, if_neg (by simp [hc])]
    rw [List.cons_append, scan_cons_of_eq hstep,
      ih (fun c' hc' => h c' (List.mem_cons_of_mem _ hc')), List.reverse_cons,
      List.append_assoc, List.singleton_append]

theorem startToken_of_word (done : List Token) (h : endsWord c = false) :
    startToken done c = (done, .word [c]) := by
  unfold endsWord at h
  simp only [Bool.or_eq_false_iff, decide_eq_false_iff_not, Option.isSome_eq_false_iff,
    Option.isNone_iff_eq_none] at h
  obtain ⟨⟨hblank, hquote⟩, hpunctuation⟩ := h
  unfold startToken
  rw [if_neg (by simp [hblank]), if_neg hquote, hpunctuation]

/-- A word is cut off where it ends. -/
theorem Scans.word {w : List Char} {token : Token} (hne : w ≠ [])
    (hw : ∀ c ∈ w, endsWord c = false) (htoken : wordToken? w = some token)
    (hrest : Delimited rest) : Scans (w ++ rest) [token] rest := by
  intro done
  cases w with
  | nil => exact absurd rfl hne
  | cons c w =>
    have hc : endsWord c = false := hw c List.mem_cons_self
    have hstart : scanChar done .between c = some (done, .word [c]) := by
      unfold scanChar
      rw [startToken_of_word done hc]
    have htoken' : wordToken? (w.reverse ++ [c]).reverse = some token := by
      rw [List.reverse_append, List.reverse_reverse]
      exact htoken
    rw [List.cons_append, scan_cons_of_eq hstart,
      scan_word_append done (fun c' hc' => hw c' (List.mem_cons_of_mem _ hc')),
      List.reverse_singleton, List.singleton_append]
    -- the word ends with the text, or before a character that cannot belong to it
    cases rest with
    | nil =>
      rw [scan, scan, finishScan, finishScan, htoken', Option.map_some]
    | cons d rest =>
      have hd : endsWord d = true := hrest d rest rfl
      unfold endsWord at hd
      rw [scan, scan, scanChar, scanChar, if_pos hd, htoken', Option.map_some]

theorem Scans.punctuation {token : Token} (h : punctuation? c = some token) (rest : List Char) :
    Scans (c :: rest) [token] rest := by
  intro done
  have hmem := punctuation?_isSome (by rw [h]; rfl)
  have hother : ∀ c ∈ ['[', ']', '\x7b', '\x7d', ':', ','], isBlank c = false ∧ c ≠ '"' := by
    simp [isBlank]
  obtain ⟨hblank, hquote⟩ := hother c hmem
  refine scan_cons_of_eq ?_
  unfold scanChar startToken
  rw [if_neg (by simp [hblank]), if_neg hquote, h]
  rfl

/-! ## Numbers -/

theorem Digits.allDigits (h : Digits cs) : allDigits cs = true := by
  unfold Json.allDigits
  rw [Bool.and_eq_true, List.all_eq_true]
  exact ⟨by simpa using h.nonempty, h.digits⟩

theorem Whole.isDigits (h : Whole cs) : Digits cs := by
  cases h with
  | zero => exact ⟨by simp, by simp⟩
  | digits h _ => exact h

theorem Whole.isPlainInteger (h : Whole cs) : isPlainInteger cs = true := by
  unfold Json.isPlainInteger
  rw [Bool.and_eq_true]
  refine ⟨h.isDigits.allDigits, ?_⟩
  cases h with
  | zero => rfl
  | digits _ hhead => simp [hhead]

theorem span_append {p : Char → Bool} (hcs : ∀ c ∈ cs, p c = true)
    (hrest : ∀ c cs', rest = c :: cs' → p c = false) : (cs ++ rest).span p = (cs, rest) := by
  rw [List.span_eq_takeWhile_dropWhile, List.takeWhile_append_of_pos hcs,
    List.dropWhile_append_of_pos hcs]
  cases rest with
  | nil => rw [List.takeWhile_nil, List.dropWhile_nil, List.append_nil]
  | cons c cs' =>
    have hc : ¬p c = true := by
      rw [hrest c cs' rfl]
      exact Bool.false_ne_true
    rw [List.takeWhile_cons_of_neg hc, List.dropWhile_cons_of_neg hc, List.append_nil]

theorem Fraction.mem (h : Fraction cs) : ∀ c ∈ cs, c.isDigit = true ∨ c = '.' := by
  cases h with
  | absent => simp
  | present hdigits =>
    intro c hc
    rcases List.mem_cons.1 hc with rfl | hc
    · exact .inr rfl
    · exact .inl (hdigits.digits c hc)

theorem Exponent.head (h : Exponent (c :: cs)) : c = 'e' ∨ c = 'E' := by
  cases h with
  | plain hletter _ => exact hletter
  | signed hletter _ _ => exact hletter

theorem Exponent.mem (h : Exponent cs) :
    ∀ c ∈ cs, c.isDigit = true ∨ c ∈ ['-', '+', '.', 'e', 'E'] := by
  have hletter : ∀ {e : Char}, e = 'e' ∨ e = 'E' → e ∈ ['-', '+', '.', 'e', 'E'] := by
    rintro e (rfl | rfl)
    · decide
    · decide
  cases h with
  | absent => simp
  | plain he hdigits =>
    intro c hc
    rcases List.mem_cons.1 hc with rfl | hc
    · exact .inr (hletter he)
    · exact .inl (hdigits.digits c hc)
  | signed he hsign hdigits =>
    intro c hc
    rcases List.mem_cons.1 hc with rfl | hc
    · exact .inr (hletter he)
    rcases List.mem_cons.1 hc with rfl | hc
    · rcases hsign with rfl | rfl
      · exact .inr (by decide)
      · exact .inr (by decide)
    · exact .inl (hdigits.digits c hc)

theorem Digits.isExponent (h : Digits cs) : isExponent cs = true := by
  unfold Json.isExponent
  split
  · exact absurd (h.digits '+' List.mem_cons_self) (by decide)
  · exact absurd (h.digits '-' List.mem_cons_self) (by decide)
  · exact h.allDigits

theorem isTail_append {f e : List Char} (hf : Fraction f) (he : Exponent e) :
    isTail (f ++ e) = true := by
  -- the scanner cuts at the first letter, and a fraction has none
  have hspan : (f ++ e).span (fun c => c != 'e' && c != 'E') = (f, e) := by
    refine span_append ?_ ?_
    · intro c hc
      have hother : c ≠ 'e' ∧ c ≠ 'E' := by
        rcases hf.mem c hc with hdigit | rfl
        · constructor
          · rintro rfl
            exact absurd hdigit (by decide)
          · rintro rfl
            exact absurd hdigit (by decide)
        · decide
      simp [hother.1, hother.2]
    · rintro c cs' rfl
      rcases he.head with rfl | rfl
      · rfl
      · rfl
  unfold isTail
  rw [hspan]
  dsimp only
  rw [Bool.and_eq_true]
  constructor
  · cases hf with
    | absent => rfl
    | present hdigits => exact hdigits.allDigits
  · cases he with
    | absent => rfl
    | plain _ hdigits => exact hdigits.isExponent
    | signed _ hsign hdigits =>
      rcases hsign with rfl | rfl
      · exact hdigits.allDigits
      · exact hdigits.allDigits

theorem unsigned?_append {ds f e : List Char} (hds : Whole ds) (hf : Fraction f)
    (he : Exponent e) :
    unsigned? (ds ++ (f ++ e)) = some (Nat.ofDigitChars 10 ds 0, !(f ++ e).isEmpty) := by
  have hspan : (ds ++ (f ++ e)).span Char.isDigit = (ds, f ++ e) := by
    refine span_append hds.isDigits.digits ?_
    intro c cs' heq
    cases hf with
    | absent =>
      rw [List.nil_append] at heq
      subst heq
      rcases he.head with rfl | rfl
      · rfl
      · rfl
    | present _ =>
      obtain ⟨rfl, -⟩ := List.cons.inj heq
      rfl
  unfold unsigned?
  rw [hspan]
  dsimp only
  rw [hds.isPlainInteger, isTail_append hf he]
  rfl

/-- Only a zero denotes zero. -/
theorem Whole.ofDigitChars_ne_zero {ds : List Char} (h : Whole ds) (hne : ds ≠ ['0']) :
    Nat.ofDigitChars 10 ds 0 ≠ 0 := by
  cases h with
  | zero => exact absurd rfl hne
  | digits hdigits hhead =>
    cases ds with
    | nil => exact absurd rfl hdigits.nonempty
    | cons c ds =>
      have hzero : c ≠ '0' := by
        rintro rfl
        exact hhead rfl
      have hdigit := Char.isDigit_iff_toNat.1 (hdigits.digits c List.mem_cons_self)
      have hne : c.toNat ≠ '0'.toNat := fun heq => hzero (Char.toNat_inj.1 heq)
      have hpos : 0 < c.toNat - '0'.toNat := by omega
      rw [Nat.ofDigitChars_cons, Nat.ofDigitChars_eq_ofDigitChars_zero, Nat.mul_zero, Nat.zero_add]
      have hpower : 0 < 10 ^ ds.length * (c.toNat - '0'.toNat) :=
        Nat.mul_pos (Nat.pow_pos (by decide)) hpos
      omega

theorem number?_of_whole {ds : List Char} (hds : Whole ds) (tail : List Char) :
    number? (ds ++ tail) = (unsigned? (ds ++ tail)).map fun (n, more) =>
      if more then decimal (String.ofList (ds ++ tail)) else integer n := by
  unfold number?
  split
  · rename_i rest heq
    have hdigits := hds.isDigits
    cases ds with
    | nil => exact absurd rfl hdigits.nonempty
    | cons c ds =>
      obtain ⟨rfl, -⟩ := List.cons.inj heq
      exact absurd (hdigits.digits '-' List.mem_cons_self) (by decide)
  · rfl

theorem number?_of_numeral (h : Numeral v cs) : number? cs = some v := by
  have hinteger : ∀ {ds : List Char}, Whole ds →
      unsigned? ds = some (Nat.ofDigitChars 10 ds 0, false) := by
    intro ds hds
    have hnone := unsigned?_append hds .absent .absent
    rwa [List.append_nil, List.append_nil] at hnone
  have hmore : ∀ {tail : List Char}, tail ≠ [] → (!tail.isEmpty) = true := by
    intro tail hne
    simp [hne]
  cases h with
  | natural hds =>
    have hnumber := number?_of_whole hds []
    rw [List.append_nil, hinteger hds] at hnumber
    exact hnumber
  | negative hds hne =>
    rw [number?, hinteger hds, Option.map_some]
    simp [hds.ofDigitChars_ne_zero hne]
  | minusZero => rfl
  | decimal hds hf he hne =>
    rw [number?_of_whole hds _, unsigned?_append hds hf he, hmore hne]
    rfl
  | negativeDecimal hds hf he hne =>
    rw [number?, unsigned?_append hds hf he, hmore hne]
    rfl

theorem Numeral.mem (h : Numeral v cs) :
    ∀ c ∈ cs, c.isDigit = true ∨ c ∈ ['-', '+', '.', 'e', 'E'] := by
  have hwhole : ∀ {ds : List Char}, Whole ds →
      ∀ c ∈ ds, c.isDigit = true ∨ c ∈ ['-', '+', '.', 'e', 'E'] :=
    fun hds c hc => .inl (hds.isDigits.digits c hc)
  have htail : ∀ {ds f e : List Char}, Whole ds → Fraction f → Exponent e →
      ∀ c ∈ ds ++ (f ++ e), c.isDigit = true ∨ c ∈ ['-', '+', '.', 'e', 'E'] := by
    intro ds f e hds hf he c hc
    rcases List.mem_append.1 hc with hc | hc
    · exact hwhole hds c hc
    rcases List.mem_append.1 hc with hc | hc
    · exact (hf.mem c hc).imp_right fun heq => by simp [heq]
    · exact he.mem c hc
  have hminus : ∀ {cs : List Char},
      (∀ c ∈ cs, c.isDigit = true ∨ c ∈ ['-', '+', '.', 'e', 'E']) →
      ∀ c ∈ '-' :: cs, c.isDigit = true ∨ c ∈ ['-', '+', '.', 'e', 'E'] := by
    intro cs hcs c hc
    rcases List.mem_cons.1 hc with rfl | hc
    · exact .inr List.mem_cons_self
    · exact hcs c hc
  cases h with
  | natural hds => exact hwhole hds
  | negative hds _ => exact hminus (hwhole hds)
  | minusZero => simp
  | decimal hds hf he _ => exact htail hds hf he
  | negativeDecimal hds hf he _ => exact hminus (htail hds hf he)

theorem Numeral.ne_nil (h : Numeral v cs) : cs ≠ [] := by
  cases h with
  | natural hds => exact hds.isDigits.nonempty
  | negative => exact List.cons_ne_nil _ _
  | minusZero => exact List.cons_ne_nil _ _
  | decimal hds _ _ _ => exact List.append_ne_nil_of_left_ne_nil hds.isDigits.nonempty _
  | negativeDecimal => exact List.cons_ne_nil _ _

theorem Numeral.wordToken? (h : Numeral v cs) : wordToken? cs = some (.scalar v) := by
  have hletter : ∀ w ∈ [['n', 'u', 'l', 'l'], ['t', 'r', 'u', 'e'], ['f', 'a', 'l', 's', 'e']],
      cs ≠ w := by
    rintro w hw rfl
    -- each of these words has a letter that no number has
    have hnone : ∀ w ∈ [['n', 'u', 'l', 'l'], ['t', 'r', 'u', 'e'], ['f', 'a', 'l', 's', 'e']],
        ∃ c ∈ w, ¬(c.isDigit = true ∨ c ∈ ['-', '+', '.', 'e', 'E']) := by
      simp [Char.isDigit]
    obtain ⟨c, hc, hother⟩ := hnone cs hw
    exact hother (h.mem c hc)
  unfold Json.wordToken?
  rw [if_neg (hletter _ (by decide)), if_neg (hletter _ (by decide)),
    if_neg (hletter _ (by decide)), number?_of_numeral h]
  rfl

/-! ## Strings -/

theorem HexDigit.hexValue? {n : Nat} (h : HexDigit n c) : hexValue? c = some n := by
  have hlower : ∀ p ∈ "0123456789abcdef".toList.zipIdx, Json.hexValue? p.1 = some p.2 := by
    decide
  have hupper : ∀ p ∈ "0123456789ABCDEF".toList.zipIdx, Json.hexValue? p.1 = some p.2 := by
    decide
  rcases h with h | h
  · exact hlower (c, n) (List.mem_zipIdx_iff_getElem?.2 h)
  · exact hupper (c, n) (List.mem_zipIdx_iff_getElem?.2 h)

theorem HexUnit.scan_eq {n : Nat} (h : HexUnit n cs rest) (done : List Token)
    (pieces : List Piece) :
    scan done (.hex 4 0 pieces) cs = scan done (.inString (.unit n :: pieces)) rest := by
  cases h with
  | @mk n₁ n₂ n₃ n₄ c₁ c₂ c₃ c₄ _ h₁ h₂ h₃ h₄ =>
    have hfirst : scanChar done (.hex 4 0 pieces) c₁ = some (done, .hex 3 n₁ pieces) := by
      rw [scanChar, h₁.hexValue?]
      simp
    have hsecond : scanChar done (.hex 3 n₁ pieces) c₂ =
        some (done, .hex 2 (16 * n₁ + n₂) pieces) := by
      rw [scanChar, h₂.hexValue?]
      rfl
    have hthird : scanChar done (.hex 2 (16 * n₁ + n₂) pieces) c₃ =
        some (done, .hex 1 (16 * (16 * n₁ + n₂) + n₃) pieces) := by
      rw [scanChar, h₃.hexValue?]
      rfl
    have hfourth : scanChar done (.hex 1 (16 * (16 * n₁ + n₂) + n₃) pieces) c₄ =
        some (done, .inString (.unit (16 * (16 * (16 * n₁ + n₂) + n₃) + n₄) :: pieces)) := by
      rw [scanChar, h₄.hexValue?]
      rfl
    rw [scan_cons_of_eq hfirst, scan_cons_of_eq hsecond, scan_cons_of_eq hthird,
      scan_cons_of_eq hfourth]

/-- A character is no surrogate. -/
theorem toNat_lt_or_le (c : Char) : c.toNat < 0xD800 ∨ 0xE000 ≤ c.toNat := by
  have hvalid : c.toNat < 0xD800 ∨ 0xDFFF < c.toNat ∧ c.toNat < 0x110000 := c.valid
  omega

theorem assemblePieces_unit (c : Char) (pieces : List Piece) :
    assemblePieces (.unit c.toNat :: pieces) = (assemblePieces pieces).map (c :: ·) := by
  have hrange := toNat_lt_or_le c
  have hhigh : isHighSurrogate c.toNat = false := by
    unfold isHighSurrogate
    simp
    omega
  have hlow : isLowSurrogate c.toNat = false := by
    unfold isLowSurrogate
    simp
    omega
  cases pieces with
  | nil => simp [assemblePieces, hhigh, hlow]
  | cons p pieces =>
    cases p with
    | char d => simp [assemblePieces, hhigh, hlow]
    | unit n => simp [assemblePieces, hhigh, hlow]

theorem assemblePieces_pair {high low : Nat} (hhigh : isHighSurrogate high = true)
    (hlow : isLowSurrogate low = true) (pieces : List Piece) :
    assemblePieces (.unit high :: .unit low :: pieces) =
      (assemblePieces pieces).map (pairedChar high low :: ·) := by
  rw [assemblePieces, hhigh, hlow]
  rfl

/-- A character inside quotes is read as parts that are put together to it. -/
theorem SpellsChar.exists_pieces (h : SpellsChar c cs rest) : ∃ ps : List Piece,
    (∀ done pieces, scan done (.inString pieces) cs =
      scan done (.inString (ps.reverse ++ pieces)) rest) ∧
    ∀ more, assemblePieces (ps ++ more) = (assemblePieces more).map (c :: ·) := by
  have hescape : ∀ {e : Char}, e ≠ 'u' → escaped? e = some c → ∀ done pieces,
      scan done (.inString pieces) ('\\' :: e :: rest) =
        scan done (.inString ([Piece.char c].reverse ++ pieces)) rest := by
    intro e hne he done pieces
    have hstep : scanChar done (.escape pieces) e =
        some (done, .inString (.char c :: pieces)) := by
      rw [scanChar, if_neg hne, he]
      rfl
    rw [scan_cons_of_eq rfl, scan_cons_of_eq hstep]
    rfl
  cases h with
  | plain hquote hbackslash hcontrol =>
    refine ⟨[.char c], ?_, fun _ => rfl⟩
    intro done pieces
    have hstep : scanChar done (.inString pieces) c =
        some (done, .inString (.char c :: pieces)) := by
      rw [scanChar, if_neg hquote, if_neg hbackslash, if_neg (Nat.not_lt.2 hcontrol)]
    rw [scan_cons_of_eq hstep]
    rfl
  | quote => exact ⟨[.char _], hescape (by decide) rfl, fun _ => rfl⟩
  | backslash => exact ⟨[.char _], hescape (by decide) rfl, fun _ => rfl⟩
  | slash => exact ⟨[.char _], hescape (by decide) rfl, fun _ => rfl⟩
  | backspace => exact ⟨[.char _], hescape (by decide) rfl, fun _ => rfl⟩
  | formFeed => exact ⟨[.char _], hescape (by decide) rfl, fun _ => rfl⟩
  | lineFeed => exact ⟨[.char _], hescape (by decide) rfl, fun _ => rfl⟩
  | carriageReturn => exact ⟨[.char _], hescape (by decide) rfl, fun _ => rfl⟩
  | tab => exact ⟨[.char _], hescape (by decide) rfl, fun _ => rfl⟩
  | unit hunit =>
    refine ⟨[.unit c.toNat], ?_, assemblePieces_unit c⟩
    intro done pieces
    rw [scan_cons_of_eq rfl, scan_cons_of_eq rfl]
    exact hunit.scan_eq done pieces
  | @pair _ high low _ _ _ hhigh hlow hhigh₁ hhigh₂ hlow₁ hlow₂ hc =>
    -- both surrogates are kept as they are read, and paired at the end of the string
    refine ⟨[.unit high, .unit low], ?_, ?_⟩
    · intro done pieces
      rw [scan_cons_of_eq rfl, scan_cons_of_eq rfl]
      refine (hhigh.scan_eq done pieces).trans ?_
      rw [scan_cons_of_eq rfl, scan_cons_of_eq rfl]
      exact hlow.scan_eq done (.unit high :: pieces)
    · intro more
      have hpaired : pairedChar high low = c := by
        unfold pairedChar
        rw [← hc, Char.ofNat_toNat]
      rw [← hpaired]
      refine assemblePieces_pair ?_ ?_ more
      · unfold isHighSurrogate
        simp
        omega
      · unfold isLowSurrogate
        simp
        omega

theorem SpellsChars.exists_pieces {s : List Char} (h : SpellsChars s cs rest) :
    ∃ ps : List Piece, (∀ done pieces, scan done (.inString pieces) cs =
      scan (stringToken (ps.reverse ++ pieces) :: done) .between rest) ∧
    assemblePieces ps = some s := by
  induction h with
  | close => exact ⟨[], fun _ _ => scan_cons_of_eq rfl, rfl⟩
  | next hchar _ ih =>
    obtain ⟨ps, hscan, hassemble⟩ := hchar.exists_pieces
    obtain ⟨ps', hscan', hassemble'⟩ := ih
    refine ⟨ps ++ ps', ?_, ?_⟩
    · intro done pieces
      rw [hscan, hscan', List.reverse_append, List.append_assoc]
    · rw [hassemble, hassemble']
      rfl

theorem Scans.string {s : List Char} (h : SpellsChars s cs rest) :
    Scans ('"' :: cs) [.scalar (text (String.ofList s))] rest := by
  intro done
  obtain ⟨ps, hscan, hassemble⟩ := h.exists_pieces
  have htoken : stringToken (ps.reverse ++ []) = .scalar (text (String.ofList s)) := by
    unfold stringToken
    rw [List.append_nil, List.reverse_reverse, hassemble]
    rfl
  rw [scan_cons_of_eq rfl]
  refine (hscan done []).trans ?_
  rw [htoken]
  rfl

/-! ## Values -/

/-- The reader goes on after a value. -/
def resume (v : Json) (stack : List Context) (tokens : List Token) : Option Json :=
  readTokens (deliver v stack).1 (deliver v stack).2 tokens

/-- The tokens are put together to the value, wherever it is expected. -/
def Delivers (tokens : List Token) (v : Json) : Prop :=
  ∀ stack mayClose more,
    readTokens stack (.value mayClose) (tokens ++ more) = resume v stack more

/-- The tokens are put together to the last items of an array, and close it. -/
def DeliversItems (tokens : List Token) (items : List Json) : Prop :=
  ∀ before outer mayClose more,
    readTokens (.array before :: outer) (.value mayClose) (tokens ++ more) =
      resume (.array (before.reverse ++ items)) outer more

/-- The tokens are put together to the last fields of an object, and close it. -/
def DeliversFields (tokens : List Token) (fields : List (Option String × Json)) : Prop :=
  ∀ before key outer mayClose more,
    readTokens (.object before key :: outer) (.key mayClose) (tokens ++ more) =
      resume (.object (before.reverse ++ fields)) outer more

variable {tokens tokens' : List Token}

theorem readTokens_cons_of_eq {stack stack' : List Context} {expected expected' : Expectation}
    {token : Token} (h : readToken stack expected token = some (stack', expected'))
    (more : List Token) :
    readTokens stack expected (token :: more) = readTokens stack' expected' more := by
  rw [readTokens, h]

theorem Delivers.scalar (v : Json) : Delivers [.scalar v] v := by
  intro stack mayClose more
  rw [List.singleton_append, readTokens, readToken]
  rfl

theorem Delivers.emptyArray : Delivers [.openBracket, .closeBracket] (array []) := by
  intro stack mayClose more
  rfl

theorem Delivers.emptyObject : Delivers [.openBrace, .closeBrace] (object []) := by
  intro stack mayClose more
  rfl

theorem DeliversItems.array {items : List Json} (h : DeliversItems tokens items) :
    Delivers (.openBracket :: tokens) (array items) := by
  intro stack mayClose more
  rw [List.cons_append, readTokens_cons_of_eq rfl]
  exact h [] stack true more

theorem DeliversFields.object {fields : List (Option String × Json)}
    (h : DeliversFields tokens fields) : Delivers (.openBrace :: tokens) (object fields) := by
  intro stack mayClose more
  rw [List.cons_append, readTokens_cons_of_eq rfl]
  exact h [] none stack true more

theorem DeliversItems.last (h : Delivers tokens v) :
    DeliversItems (tokens ++ [.closeBracket]) [v] := by
  intro before outer mayClose more
  rw [List.append_assoc, h]
  unfold resume
  rw [deliver, List.singleton_append, readTokens_cons_of_eq rfl, List.reverse_cons]
  rfl

theorem DeliversItems.next {items : List Json} (h : Delivers tokens v)
    (h' : DeliversItems tokens' items) :
    DeliversItems (tokens ++ .comma :: tokens') (v :: items) := by
  intro before outer mayClose more
  rw [List.append_assoc, h]
  unfold resume
  rw [deliver, List.cons_append, readTokens_cons_of_eq rfl, h', List.reverse_cons,
    List.append_assoc, List.singleton_append]
  rfl

theorem DeliversFields.last {key : String} (h : Delivers tokens v) :
    DeliversFields (.scalar (text key) :: .colon :: (tokens ++ [.closeBrace])) [(some key, v)] := by
  intro before key' outer mayClose more
  rw [List.cons_append, readTokens_cons_of_eq rfl, List.cons_append, readTokens_cons_of_eq rfl,
    List.append_assoc, h]
  unfold resume
  rw [deliver, List.singleton_append, readTokens_cons_of_eq rfl, List.reverse_cons]
  rfl

theorem DeliversFields.next {key : String} {fields : List (Option String × Json)}
    (h : Delivers tokens v) (h' : DeliversFields tokens' fields) :
    DeliversFields (.scalar (text key) :: .colon :: (tokens ++ .comma :: tokens'))
      ((some key, v) :: fields) := by
  intro before key' outer mayClose more
  rw [List.cons_append, readTokens_cons_of_eq rfl, List.cons_append, readTokens_cons_of_eq rfl,
    List.append_assoc, h]
  unfold resume
  rw [deliver, List.cons_append, readTokens_cons_of_eq rfl, h', List.reverse_cons,
    List.append_assoc, List.singleton_append]
  rfl

/-! ## Texts -/

theorem Scans.key {key : String} (h : SpellsKey key cs rest) :
    Scans cs [.scalar (text key), .colon] rest := by
  cases h with
  | mk hbefore hkey hafter =>
    exact (Scans.blanks hbefore).trans
      ((Scans.string hkey).trans ((Scans.blanks hafter).trans (Scans.punctuation rfl rest)))

theorem Scans.scalarWord {w : List Char} (hne : w ≠ []) (hw : ∀ c ∈ w, endsWord c = false)
    (htoken : wordToken? w = some (.scalar v)) (hrest : Delimited rest) :
    ∃ tokens, Scans (w ++ rest) tokens rest ∧ Delivers tokens v :=
  ⟨_, Scans.word hne hw htoken hrest, Delivers.scalar v⟩

mutual

/-- A text of a value is cut into tokens that are put together to the value. -/
theorem Spells.exists_tokens {v : Json} {cs rest : List Char} : Spells v cs rest →
    Delimited rest → ∃ tokens, Scans cs tokens rest ∧ Delivers tokens v
  | .null => Scans.scalarWord (w := ['n', 'u', 'l', 'l']) (by decide)
    (by simp [endsWord, isBlank, punctuation?]) rfl
  | .true => Scans.scalarWord (w := ['t', 'r', 'u', 'e']) (by decide)
    (by simp [endsWord, isBlank, punctuation?]) rfl
  | .false => Scans.scalarWord (w := ['f', 'a', 'l', 's', 'e']) (by decide)
    (by simp [endsWord, isBlank, punctuation?]) rfl
  | .number hnumeral =>
    Scans.scalarWord hnumeral.ne_nil (fun c hc => endsWord_eq_false (hnumeral.mem c hc))
      hnumeral.wordToken?
  | .string hchars => fun _ => ⟨_, Scans.string hchars, Delivers.scalar _⟩
  | .emptyArray hblanks => fun _ => ⟨_, (Scans.punctuation rfl _).trans
      ((Scans.blanks hblanks).trans (Scans.punctuation rfl _)), Delivers.emptyArray⟩
  | .emptyObject hblanks => fun _ => ⟨_, (Scans.punctuation rfl _).trans
      ((Scans.blanks hblanks).trans (Scans.punctuation rfl _)), Delivers.emptyObject⟩
  | .array hitems => by
    obtain ⟨tokens, hscans, hdelivers⟩ := hitems.exists_tokens
    exact fun _ => ⟨_, (Scans.punctuation rfl _).trans hscans, DeliversItems.array hdelivers⟩
  | .object hfields => by
    obtain ⟨tokens, hscans, hdelivers⟩ := hfields.exists_tokens
    exact fun _ => ⟨_, (Scans.punctuation rfl _).trans hscans, DeliversFields.object hdelivers⟩

theorem SpellsItems.exists_tokens {items : List Json} {cs rest : List Char} :
    SpellsItems items cs rest → ∃ tokens, Scans cs tokens rest ∧ DeliversItems tokens items
  | .lastItem hbefore hv hafter => by
    obtain ⟨tokens, hscans, hdelivers⟩ :=
      hv.exists_tokens (delimited_of_blanks hafter (delimited_cons (by decide) _))
    exact ⟨_, (Scans.blanks hbefore).trans
      (hscans.trans ((Scans.blanks hafter).trans (Scans.punctuation rfl _))),
      DeliversItems.last hdelivers⟩
  | .nextItem hbefore hv hafter hitems => by
    obtain ⟨tokens, hscans, hdelivers⟩ :=
      hv.exists_tokens (delimited_of_blanks hafter (delimited_cons (by decide) _))
    obtain ⟨tokens', hscans', hdelivers'⟩ := hitems.exists_tokens
    exact ⟨_, (Scans.blanks hbefore).trans
      (hscans.trans ((Scans.blanks hafter).trans ((Scans.punctuation rfl _).trans hscans'))),
      DeliversItems.next hdelivers hdelivers'⟩

theorem SpellsFields.exists_tokens {fields : List (Option String × Json)}
    {cs rest : List Char} : SpellsFields fields cs rest →
      ∃ tokens, Scans cs tokens rest ∧ DeliversFields tokens fields
  | .lastField hkey hbefore hv hafter => by
    obtain ⟨tokens, hscans, hdelivers⟩ :=
      hv.exists_tokens (delimited_of_blanks hafter (delimited_cons (by decide) _))
    exact ⟨_, (Scans.key hkey).trans ((Scans.blanks hbefore).trans
      (hscans.trans ((Scans.blanks hafter).trans (Scans.punctuation rfl _)))),
      DeliversFields.last hdelivers⟩
  | .nextField hkey hbefore hv hafter hfields => by
    obtain ⟨tokens, hscans, hdelivers⟩ :=
      hv.exists_tokens (delimited_of_blanks hafter (delimited_cons (by decide) _))
    obtain ⟨tokens', hscans', hdelivers'⟩ := hfields.exists_tokens
    exact ⟨_, (Scans.key hkey).trans ((Scans.blanks hbefore).trans
      (hscans.trans ((Scans.blanks hafter).trans ((Scans.punctuation rfl _).trans hscans')))),
      DeliversFields.next hdelivers hdelivers'⟩

end

/-- Every text of a value is read as this value. -/
theorem parse?_of_textOf {text : String} (h : TextOf v text) : parse? text = some v := by
  cases h with
  | mk hbefore hspells hafter =>
    have hend : Delimited [] := fun c cs heq => by cases heq
    obtain ⟨tokens, hscans, hdelivers⟩ :=
      hspells.exists_tokens (delimited_of_blanks hafter hend)
    have htokens : tokens? text.toList = some tokens := by
      have hall := (Scans.blanks hbefore).trans (hscans.trans (Scans.blanks hafter))
      rw [hall.tokens?, List.nil_append, List.append_nil]
    unfold parse?
    rw [htokens, Option.bind_some]
    have hread := hdelivers [] false []
    rw [List.append_nil] at hread
    exact hread

end PoolLint.Json

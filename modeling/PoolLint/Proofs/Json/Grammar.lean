import PoolLint.Json.Value

/-!
# The grammar of JSON

Which texts denote a value: blanks may stand around every bracket and separator, a character of a
string may be escaped in several ways, and numbers may have a fraction and an exponent. The
relations are between what is left of a text before and after, so that one follows another without
any gap: `Spells v cs rest` says that `cs` starts with a text of `v`, which is followed by `rest`.
-/

namespace PoolLint.Json

/-- What is left after some blanks. -/
inductive Blanks : List Char → List Char → Prop
  | none {cs : List Char} : Blanks cs cs
  | space {cs rest : List Char} : Blanks cs rest → Blanks (' ' :: cs) rest
  | tab {cs rest : List Char} : Blanks cs rest → Blanks ('\t' :: cs) rest
  | lineFeed {cs rest : List Char} : Blanks cs rest → Blanks ('\n' :: cs) rest
  | carriageReturn {cs rest : List Char} : Blanks cs rest → Blanks ('\r' :: cs) rest

/-! ## Numbers -/

/-- At least one digit, and nothing else. -/
structure Digits (cs : List Char) : Prop where
  nonempty : cs ≠ []
  digits : ∀ c ∈ cs, c.isDigit = true

/-- The integer part of a number: a single zero, or digits that do not start with zero. -/
inductive Whole : List Char → Prop
  | zero : Whole ['0']
  | digits {cs : List Char} : Digits cs → cs.head? ≠ some '0' → Whole cs

/-- The fraction of a number, which may be absent. -/
inductive Fraction : List Char → Prop
  | absent : Fraction []
  | present {cs : List Char} : Digits cs → Fraction ('.' :: cs)

/-- The exponent of a number, which may be absent. -/
inductive Exponent : List Char → Prop
  | absent : Exponent []
  | plain {e : Char} {cs : List Char} : e = 'e' ∨ e = 'E' → Digits cs → Exponent (e :: cs)
  | signed {e sign : Char} {cs : List Char} : e = 'e' ∨ e = 'E' → sign = '+' ∨ sign = '-' →
      Digits cs → Exponent (e :: sign :: cs)

/-- What a number denotes: an integer if it has neither fraction nor exponent and is not `-0`, and
otherwise a decimal number, which is kept as written. -/
inductive Numeral : Json → List Char → Prop
  | natural {ds : List Char} : Whole ds → Numeral (nat (Nat.ofDigitChars 10 ds 0)) ds
  | negative {ds : List Char} : Whole ds → ds ≠ ['0'] →
      Numeral (integer (-(Nat.ofDigitChars 10 ds 0 : Nat))) ('-' :: ds)
  | minusZero : Numeral (decimal "-0") ['-', '0']
  | decimal {ds f e : List Char} : Whole ds → Fraction f → Exponent e → f ++ e ≠ [] →
      Numeral (decimal (String.ofList (ds ++ (f ++ e)))) (ds ++ (f ++ e))
  | negativeDecimal {ds f e : List Char} : Whole ds → Fraction f → Exponent e → f ++ e ≠ [] →
      Numeral (decimal (String.ofList ('-' :: (ds ++ (f ++ e))))) ('-' :: (ds ++ (f ++ e)))

/-! ## Strings -/

/-- The hexadecimal digit of a value. -/
def HexDigit (n : Nat) (c : Char) : Prop :=
  "0123456789abcdef".toList[n]? = some c ∨ "0123456789ABCDEF".toList[n]? = some c

/-- A code unit given by four hexadecimal digits. -/
inductive HexUnit : Nat → List Char → List Char → Prop
  | mk {n₁ n₂ n₃ n₄ : Nat} {c₁ c₂ c₃ c₄ : Char} {rest : List Char} : HexDigit n₁ c₁ →
      HexDigit n₂ c₂ → HexDigit n₃ c₃ → HexDigit n₄ c₄ →
      HexUnit (16 * (16 * (16 * n₁ + n₂) + n₃) + n₄) (c₁ :: c₂ :: c₃ :: c₄ :: rest) rest

/-- How a character may be written inside quotes. -/
inductive SpellsChar : Char → List Char → List Char → Prop
  | plain {c : Char} {rest : List Char} : c ≠ '"' → c ≠ '\\' → 32 ≤ c.toNat →
      SpellsChar c (c :: rest) rest
  | quote {rest : List Char} : SpellsChar '"' ('\\' :: '"' :: rest) rest
  | backslash {rest : List Char} : SpellsChar '\\' ('\\' :: '\\' :: rest) rest
  | slash {rest : List Char} : SpellsChar '/' ('\\' :: '/' :: rest) rest
  | backspace {rest : List Char} : SpellsChar '\x08' ('\\' :: 'b' :: rest) rest
  | formFeed {rest : List Char} : SpellsChar '\x0c' ('\\' :: 'f' :: rest) rest
  | lineFeed {rest : List Char} : SpellsChar '\n' ('\\' :: 'n' :: rest) rest
  | carriageReturn {rest : List Char} : SpellsChar '\r' ('\\' :: 'r' :: rest) rest
  | tab {rest : List Char} : SpellsChar '\t' ('\\' :: 't' :: rest) rest
  | unit {c : Char} {cs rest : List Char} : HexUnit c.toNat cs rest →
      SpellsChar c ('\\' :: 'u' :: cs) rest
  /-- A character beyond the range of four digits, as a pair of surrogates. -/
  | pair {c : Char} {high low : Nat} {cs cs' rest : List Char} :
      HexUnit high cs ('\\' :: 'u' :: cs') → HexUnit low cs' rest →
      0xD800 ≤ high → high < 0xDC00 → 0xDC00 ≤ low → low < 0xE000 →
      c.toNat = 0x10000 + (high - 0xD800) * 0x400 + (low - 0xDC00) →
      SpellsChar c ('\\' :: 'u' :: cs) rest

/-- The characters of a string, up to and with the closing quote. -/
inductive SpellsChars : List Char → List Char → List Char → Prop
  | close {rest : List Char} : SpellsChars [] ('"' :: rest) rest
  | next {c : Char} {s cs cs' rest : List Char} : SpellsChar c cs cs' → SpellsChars s cs' rest →
      SpellsChars (c :: s) cs rest

/-- A key with the colon after it. -/
inductive SpellsKey : String → List Char → List Char → Prop
  | mk {key cs₁ cs₂ cs₃ rest : List Char} : Blanks cs₁ ('"' :: cs₂) → SpellsChars key cs₂ cs₃ →
      Blanks cs₃ (':' :: rest) → SpellsKey (String.ofList key) cs₁ rest

/-! ## Values -/

mutual

/-- A text of a value. -/
inductive Spells : Json → List Char → List Char → Prop
  | null {rest : List Char} : Spells null ('n' :: 'u' :: 'l' :: 'l' :: rest) rest
  | true {rest : List Char} : Spells (bool true) ('t' :: 'r' :: 'u' :: 'e' :: rest) rest
  | false {rest : List Char} : Spells (bool false) ('f' :: 'a' :: 'l' :: 's' :: 'e' :: rest) rest
  | number {v : Json} {cs rest : List Char} : Numeral v cs → Spells v (cs ++ rest) rest
  | string {s cs rest : List Char} : SpellsChars s cs rest →
      Spells (text (String.ofList s)) ('"' :: cs) rest
  | emptyArray {cs rest : List Char} : Blanks cs (']' :: rest) → Spells (array []) ('[' :: cs) rest
  | array {items : List Json} {cs rest : List Char} : SpellsItems items cs rest →
      Spells (array items) ('[' :: cs) rest
  | emptyObject {cs rest : List Char} : Blanks cs ('\x7d' :: rest) →
      Spells (object []) ('\x7b' :: cs) rest
  | object {fields : List (Option String × Json)} {cs rest : List Char} :
      SpellsFields fields cs rest → Spells (object fields) ('\x7b' :: cs) rest

/-- The items of an array, up to and with the closing bracket. -/
inductive SpellsItems : List Json → List Char → List Char → Prop
  | lastItem {v : Json} {cs₁ cs₂ cs₃ rest : List Char} : Blanks cs₁ cs₂ → Spells v cs₂ cs₃ →
      Blanks cs₃ (']' :: rest) → SpellsItems [v] cs₁ rest
  | nextItem {v : Json} {items : List Json} {cs₁ cs₂ cs₃ cs₄ rest : List Char} : Blanks cs₁ cs₂ →
      Spells v cs₂ cs₃ → Blanks cs₃ (',' :: cs₄) → SpellsItems items cs₄ rest →
      SpellsItems (v :: items) cs₁ rest

/-- The fields of an object, up to and with the closing brace. -/
inductive SpellsFields : List (Option String × Json) → List Char → List Char → Prop
  | lastField {key : String} {v : Json} {cs₁ cs₂ cs₃ cs₄ rest : List Char} :
      SpellsKey key cs₁ cs₂ → Blanks cs₂ cs₃ → Spells v cs₃ cs₄ → Blanks cs₄ ('\x7d' :: rest) →
      SpellsFields [(some key, v)] cs₁ rest
  | nextField {key : String} {v : Json} {fields : List (Option String × Json)}
      {cs₁ cs₂ cs₃ cs₄ cs₅ rest : List Char} :
      SpellsKey key cs₁ cs₂ → Blanks cs₂ cs₃ → Spells v cs₃ cs₄ → Blanks cs₄ (',' :: cs₅) →
      SpellsFields fields cs₅ rest →
      SpellsFields ((some key, v) :: fields) cs₁ rest

end

/-- The text denotes the value, with blanks before and after it. -/
inductive TextOf (v : Json) (text : String) : Prop
  | mk {cs rest : List Char} : Blanks text.toList cs → Spells v cs rest → Blanks rest [] →
      TextOf v text

end PoolLint.Json

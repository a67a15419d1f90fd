import PoolLint.Json.Token
import PoolLint.Numeric.Width
import PoolLint.Ron.Value
import PoolLint.Text.NameCharacter

/-!
# Tokens of the object notation

Blanks and comments separate tokens; block comments nest. A string is written in quotes with
escapes, or raw between quotes and as many hash signs as its content requires.
-/

namespace PoolLint.Ron

open PoolLint.Text

/-- The three kinds of brackets. -/
inductive Bracket where
  | paren
  | square
  | brace
deriving DecidableEq, Repr

/-- A word, which is never a keyword if it is marked as raw. -/
structure Word where
  name : String
  raw : Bool
deriving DecidableEq, Repr

/-- A lexical element. -/
inductive Token where
  | opening (bracket : Bracket)
  | closing (bracket : Bracket)
  | colon
  | comma
  | hash
  | bang
  | equals
  /-- A pair of parentheses with nothing in between. -/
  | unit
  | word (word : Word)
  /-- A number, a range of numbers, a string, or a character. -/
  | scalar (value : Ron)
deriving Repr

/-! ## Blanks and comments -/

/-- The blanks: spaces, line ends and marks of writing direction. -/
def isBlank (c : Char) : Bool :=
  c ∈ [' ', '\t', '\n', '\r', '\x0b', '\x0c', '\u0085', '\u200e', '\u200f', '\u2028', '\u2029']

/-- What is being passed over: blanks, a line comment, or a block comment inside `level`
others. -/
inductive Gap where
  | blanks
  | lineComment
  | blockComment (level : Nat)
deriving DecidableEq, Repr

/-- Passes over blanks and comments; a block comment must be closed. -/
def skipGap : Gap → List Char → Option (List Char)
  | .blanks, '/' :: '/' :: rest => skipGap .lineComment rest
  | .blanks, '/' :: '*' :: rest => skipGap (.blockComment 0) rest
  | .blanks, c :: rest => if isBlank c then skipGap .blanks rest else some (c :: rest)
  | .lineComment, c :: rest => skipGap (if c = '\n' then .blanks else .lineComment) rest
  | .blockComment level, '/' :: '*' :: rest => skipGap (.blockComment (level + 1)) rest
  | .blockComment level, '*' :: '/' :: rest =>
    match level with
    | 0 => skipGap .blanks rest
    | outer + 1 => skipGap (.blockComment outer) rest
  | .blockComment level, _ :: rest => skipGap (.blockComment level) rest
  | .blockComment _, [] => none
  | _, [] => some []

/-! ## Names -/

/-- A character that may stand only in a name marked as raw. -/
def isRawOnly (c : Char) : Bool :=
  c = '.' || c = '+' || c = '-'

/-- A character of a raw name. -/
def continuesRawName (c : Char) : Bool :=
  continuesName c || isRawOnly c

/-- The words for numbers that have no digits. -/
def numberWords : List String :=
  ["inf", "NaN"].flatMap fun name => ["", "f32", "f64"].map (name ++ ·)

/-- The words that are more than names. -/
def keywords : List String :=
  ["true", "false", "None", "Some"] ++ numberWords

/-! ## Strings and characters -/

/-- The number that hexadecimal digits denote. -/
def hexNumber? (cs : List Char) : Option Nat :=
  cs.foldlM (fun n c => (Json.hexValue? c).map (16 * n + ·)) 0

/-- Reads the character of a `\u` escape: one to six digits between braces. -/
def readUnicode (cs : List Char) : Option (Char × List Char) :=
  let (digits, rest) := cs.span (· != '\x7d')
  match rest with
  | _ :: rest =>
    if digits.isEmpty || 6 < digits.length then none
    else do
      let n ← hexNumber? digits
      if n.isValidChar then return (Char.ofNat n, rest) else none
  | [] => none

/-- The character that some bytes encode. -/
def charOfBytes? (bytes : List Nat) : Option Char := do
  match (← String.fromUTF8? ⟨(bytes.map Nat.toUInt8).toArray⟩).toList with
  | [c] => some c
  | _ => none

/-- Reads further bytes of a character, each as an escape of its own, until the bytes are
complete. -/
def readBytes (missing : Nat) (bytes : List Nat) (cs : List Char) : Option (Char × List Char) :=
  match charOfBytes? bytes, missing, cs with
  | some c, _, _ => some (c, cs)
  | none, missing + 1, '\\' :: 'x' :: a :: b :: rest => do
    readBytes missing (bytes ++ [← hexNumber? [a, b]]) rest
  | _, _, _ => none

/-- What a byte given by its number stands for. -/
inductive ByteRule where
  /-- Bytes in a row encode a character. -/
  | joined
  /-- The byte is a character by itself. -/
  | single
  /-- The byte stands for itself. -/
  | any
deriving DecidableEq, Repr

/-- Reads what follows the number of a byte. -/
def readByte (rule : ByteRule) (n : Nat) (cs : List Char) : Option (Char × List Char) :=
  match rule with
  | .joined => readBytes 3 [n] cs
  | .single => if n < 0x80 then some (Char.ofNat n, cs) else none
  | .any => some (Char.ofNat n, cs)

/-- Reads what follows a backslash. -/
def readEscape (rule : ByteRule) : List Char → Option (Char × List Char)
  | 'u' :: '\x7b' :: rest => readUnicode rest
  | 'x' :: a :: b :: rest => do readByte rule (← hexNumber? [a, b]) rest
  | '\'' :: rest => some ('\'', rest)
  | '"' :: rest => some ('"', rest)
  | '\\' :: rest => some ('\\', rest)
  | 'n' :: rest => some ('\n', rest)
  | 'r' :: rest => some ('\r', rest)
  | 't' :: rest => some ('\t', rest)
  | '0' :: rest => some ('\x00', rest)
  | _ => none

/-- A blank that is passed over at the start of a continued line. -/
def isMargin (c : Char) : Bool :=
  c ∈ [' ', '\t', '\n', '\r']

/-- Reads a string to its closing quote, at most `fuel` characters and escapes; `done` is
listed last first. A backslash at the end of a line joins it to the next line, less the blanks
at its start. -/
def readString (rule : ByteRule) (fuel : Nat) (done : List Char) (cs : List Char) :
    Option (String × List Char) :=
  match fuel, cs with
  | _, '"' :: rest => some (String.ofList done.reverse, rest)
  | fuel + 1, '\\' :: '\n' :: rest | fuel + 1, '\\' :: '\r' :: '\n' :: rest =>
    readString rule fuel done (rest.dropWhile isMargin)
  | fuel + 1, '\\' :: rest => do
    let (c, rest) ← readEscape rule rest
    readString rule fuel (c :: done) rest
  | fuel + 1, c :: rest => readString rule fuel (c :: done) rest
  | _, _ => none

/-- Reads a raw string up to the given closing characters. -/
def readUntil (closing : List Char) (done : List Char) : List Char → Option (String × List Char)
  | [] => none
  | c :: rest =>
    if closing.isPrefixOf (c :: rest) then
      some (String.ofList done.reverse, (c :: rest).drop closing.length)
    else readUntil closing (c :: done) rest

/-- Reads a raw string from its hash signs on. -/
def readRaw (cs : List Char) : Option (String × List Char) :=
  let (hashes, rest) := cs.span (· = '#')
  match rest with
  | '"' :: rest => readUntil ('"' :: hashes) [] rest
  | _ => none

/-- Reads the quote that closes a character. -/
def closeChar : List Char → Option (List Char)
  | '\'' :: rest => some rest
  | _ => none

/-- Reads a character to its closing quote. -/
def readChar : List Char → Option (List Char)
  | '\\' :: rest => do closeChar (← readEscape .single rest).2
  | _ :: rest => closeChar rest
  | [] => none

/-- Reads the character of a byte to its closing quote: one in ASCII, or the number of a
byte. -/
def readByteChar : List Char → Option (List Char)
  | '\\' :: 'u' :: _ => none
  | '\\' :: rest => do closeChar (← readEscape .any rest).2
  | c :: rest => if c.toNat < 0x80 then closeChar rest else none
  | [] => none

/-! ## Numbers -/

/-- The integer is a value of the type of that name. -/
def fitsType (name : String) (value : Int) : Bool :=
  [8, 16, 32, 64].any fun (bits : Nat) =>
    name == "i" ++ toString bits && fitsSigned bits value
      || name == "u" ++ toString bits && fitsUnsigned bits value

/-- The base of an integer with the digits that follow. -/
def splitBase : List Char → Nat × List Char
  | '0' :: 'b' :: rest => (2, rest)
  | '0' :: 'o' :: rest => (8, rest)
  | '0' :: 'x' :: rest => (16, rest)
  | cs => (10, cs)

/-- The number that digits of a base denote; underscores between and after them are passed
over. -/
def digitsIn? (base : Nat) (digits : List Char) : Option Nat :=
  digits.foldlM (fun n c =>
    if c = '_' then some n
    else (Json.hexValue? c).bind fun d => if d < base then some (base * n + d) else none) 0

/-- Separates a sign from what follows; the first part tells whether it is a minus. -/
def splitSign : List Char → Bool × List Char
  | '-' :: rest => (true, rest)
  | '+' :: rest => (false, rest)
  | cs => (false, cs)

/-- A character of an integer. -/
def isIntegerChar (c : Char) : Bool :=
  (Json.hexValue? c).isSome || c = '_'

/-- A character of a number with fraction or exponent. -/
def isFloatChar (c : Char) : Bool :=
  c.isDigit || c ∈ ['e', 'E', '.', '+', '-', '_']

/-- Reads an integer of at most 64 bits. -/
def readInteger (cs : List Char) : Option (Token × List Char) :=
  let (negative, unsigned) := splitSign cs
  let (base, rest) := splitBase unsigned
  let (digits, rest) := rest.span isIntegerChar
  let (type, rest) := rest.span continuesName
  if digits.isEmpty || digits.head? = some '_' then none
  else do
    let n ← digitsIn? base digits
    let value : Int := if negative then -n else n
    let name := String.ofList type
    let fits :=
      if type.isEmpty then fitsSigned 64 value || fitsUnsigned 64 value else fitsType name value
    if fits then return (.scalar (.integer value (if type.isEmpty then none else some name)), rest)
    else none

/-- An underscore may follow a digit or an exponent mark. -/
def underscoresOk (allowed : Bool) : List Char → Bool
  | [] => true
  | '_' :: rest => allowed && underscoresOk allowed rest
  | '.' :: rest => underscoresOk false rest
  | c :: rest => underscoresOk (allowed || c.isDigit || c = 'e' || c = 'E') rest

/-- A number: digits with or without a point, and perhaps an exponent. -/
def isFloatText (cs : List Char) : Bool :=
  let (_, cs) := splitSign cs
  let (whole, cs) := cs.span Char.isDigit
  let (fraction, cs) := match cs with
    | '.' :: rest => rest.span Char.isDigit
    | _ => ([], cs)
  let exponentOk := match cs with
    | [] => true
    | mark :: rest => (mark = 'e' || mark = 'E') && Json.isExponent rest
  !(whole.isEmpty && fraction.isEmpty) && exponentOk

/-- Separates the characters of a number from what follows; two dots are not part of it. -/
def splitFloat : List Char → List Char × List Char
  | '.' :: '.' :: rest => ([], '.' :: '.' :: rest)
  | c :: rest =>
    if isFloatChar c then
      let (number, rest) := splitFloat rest
      (c :: number, rest)
    else ([], c :: rest)
  | [] => ([], [])

/-- Reads a number with fraction or exponent, which may name its type. -/
def readFloat (cs : List Char) : Option (Token × List Char) :=
  let (number, rest) := splitFloat cs
  let (type, rest) := rest.span continuesName
  if underscoresOk false number && isFloatText (number.filter (· != '_')) &&
      ["", "f32", "f64"].contains (String.ofList type) then
    some (.scalar .other, rest)
  else none

/-- Reads infinity or the number that is none, after a sign. -/
def readSpecial (cs : List Char) : Option (Token × List Char) :=
  let (name, rest) := (splitSign cs).2.span continuesName
  if numberWords.contains (String.ofList name) then some (.scalar .other, rest) else none

/-- The first character of a number that is not a word. -/
def startsNumber (c : Char) : Bool :=
  c.isDigit || c ∈ ['+', '-', '.']

/-- Reads a number: an integer, unless more characters belong to it than an integer can
have. -/
def readNumber (cs : List Char) : Option (Token × List Char) :=
  let (_, unsigned) := splitSign cs
  if (unsigned.takeWhile isIntegerChar).length < (splitFloat unsigned).1.length then
    readFloat cs
  else readInteger cs <|> readFloat cs <|> readSpecial cs

/-! ## Ranges -/

/-- Reads an end of a range, which is a number of any spelling: what follows it, if it is
well formed. The answer is `none` where no number begins. -/
def readBound? : List Char → Option (Option (List Char))
  | 'b' :: '\'' :: rest => some (readByteChar rest)
  | cs =>
    let word := cs.takeWhile continuesName
    if numberWords.contains (String.ofList word) then some (some (cs.drop word.length))
    else if (cs.head?).any startsNumber then some ((readNumber cs).map (·.2))
    else none

/-- Reads a range from its dots on. An end that belongs to the range must be there. -/
def readRange : List Char → Option (Token × List Char)
  | '.' :: '.' :: '=' :: cs => do return (.scalar .other, ← (readBound? cs).join)
  | '.' :: '.' :: cs =>
    match readBound? cs with
    | some rest? => rest?.map (.scalar .other, ·)
    | none => some (.scalar .other, cs)
  | _ => none

/-- The range that a number begins if dots follow, or else the number itself. Blanks may not
stand between the parts of a range. -/
def rangeOr (number : Token) (cs : List Char) : Option (Token × List Char) :=
  match cs with
  | '.' :: '.' :: _ => readRange cs
  | _ => some (number, cs)

/-! ## The scanner -/

/-- Reads a word, or a range that begins with one; no character for raw names may touch it,
unless it is a keyword. -/
def readName (cs : List Char) : Option (Token × List Char) :=
  let (chars, rest) := cs.span continuesName
  let name := String.ofList chars
  let word := .word ⟨name, false⟩
  if numberWords.contains name then rangeOr word rest
  else if (rest.head?).any isRawOnly && !keywords.contains name then none
  else some (word, rest)

/-- Reads a token; in a string, at most `fuel` characters and escapes. -/
def readToken (fuel : Nat) (cs : List Char) : Option (Token × List Char) :=
  match cs with
  | '(' :: ')' :: rest => some (.unit, rest)
  | '(' :: rest => some (.opening .paren, rest)
  | ')' :: rest => some (.closing .paren, rest)
  | '[' :: rest => some (.opening .square, rest)
  | ']' :: rest => some (.closing .square, rest)
  | '\x7b' :: rest => some (.opening .brace, rest)
  | '\x7d' :: rest => some (.closing .brace, rest)
  | ':' :: rest => some (.colon, rest)
  | ',' :: rest => some (.comma, rest)
  | '#' :: rest => some (.hash, rest)
  | '!' :: rest => some (.bang, rest)
  | '=' :: rest => some (.equals, rest)
  | '.' :: '.' :: _ => readRange cs
  | '"' :: rest =>
    (readString .joined fuel [] rest).map fun (s, rest) => (.scalar (.text s), rest)
  | 'r' :: '"' :: _ | 'r' :: '#' :: '"' :: _ | 'r' :: '#' :: '#' :: _ =>
    (readRaw (cs.drop 1)).map fun (s, rest) => (.scalar (.text s), rest)
  | 'r' :: '#' :: rest =>
    let (name, rest) := rest.span continuesRawName
    if name.isEmpty then none else some (.word ⟨String.ofList name, true⟩, rest)
  | 'b' :: '"' :: rest =>
    (readString .any fuel [] rest).map fun (_, rest) => (.scalar .other, rest)
  | 'b' :: 'r' :: '"' :: _ | 'b' :: 'r' :: '#' :: _ =>
    (readRaw (cs.drop 2)).map fun (_, rest) => (.scalar .other, rest)
  | 'b' :: '\'' :: rest => do rangeOr (.scalar .other) (← readByteChar rest)
  | '\'' :: rest => (readChar rest).map (.scalar .other, ·)
  | c :: _ =>
    if startsName c then readName cs
    else if startsNumber c then do
      let (number, rest) ← readNumber cs
      rangeOr number rest
    else none
  | [] => none

/-- Cuts characters into tokens, at most `fuel` of them; `done` is listed last first. -/
def scan (fuel : Nat) (done : List Token) (cs : List Char) : Option (List Token) :=
  match skipGap .blanks cs, fuel with
  | some [], _ => some done.reverse
  | some cs, fuel + 1 => do
    let (token, rest) ← readToken fuel cs
    scan fuel (token :: done) rest
  | _, _ => none

/-- The tokens of a text. -/
def tokens? (text : List Char) : Option (List Token) :=
  scan text.length [] text

end PoolLint.Ron

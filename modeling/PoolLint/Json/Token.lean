import PoolLint.Json.Value

/-!
# JSON tokens

The text is cut into brackets, separators and scalars by one pass over its characters. A word
is a run of characters up to a blank, a bracket, a separator or a quote; JSON never lets two
words touch, so the longest run is the right one, and a word is then a literal, a number, or
no token at all.
-/

namespace PoolLint.Json

/-- A lexical element. -/
inductive Token where
  | openBracket
  | closeBracket
  | openBrace
  | closeBrace
  | colon
  | comma
  | scalar (value : Json)
deriving Repr

/-! ## Characters -/

/-- The blanks of JSON. -/
def isBlank (c : Char) : Bool :=
  c = ' ' || c = '\t' || c = '\n' || c = '\r'

/-- The token of a bracket or separator. -/
def punctuation? : Char → Option Token
  | '[' => some .openBracket
  | ']' => some .closeBracket
  | '\x7b' => some .openBrace
  | '\x7d' => some .closeBrace
  | ':' => some .colon
  | ',' => some .comma
  | _ => none

/-- The value of a hexadecimal digit. -/
def hexValue? (c : Char) : Option Nat :=
  if '0' ≤ c ∧ c ≤ '9' then some (c.toNat - 48)
  else if 'a' ≤ c ∧ c ≤ 'f' then some (c.toNat - 87)
  else if 'A' ≤ c ∧ c ≤ 'F' then some (c.toNat - 55)
  else none

/-! ## Strings -/

/-- A part of a string: a character, or a code unit given by a `\u` escape. -/
inductive Piece where
  | char (c : Char)
  | unit (value : Nat)
deriving DecidableEq, Repr

/-- The character of an escape other than `\u`. -/
def escaped? : Char → Option Char
  | '"' => some '"'
  | '\\' => some '\\'
  | '/' => some '/'
  | 'b' => some '\x08'
  | 'f' => some '\x0c'
  | 'n' => some '\n'
  | 'r' => some '\r'
  | 't' => some '\t'
  | _ => none

/-- A unit that opens a surrogate pair. -/
def isHighSurrogate (n : Nat) : Bool :=
  0xD800 ≤ n && n ≤ 0xDBFF

/-- A unit that closes a surrogate pair. -/
def isLowSurrogate (n : Nat) : Bool :=
  0xDC00 ≤ n && n ≤ 0xDFFF

/-- The character of a surrogate pair. -/
def pairedChar (high low : Nat) : Char :=
  Char.ofNat (0x10000 + (high - 0xD800) * 0x400 + (low - 0xDC00))

/-- The text of a string's parts, none if a surrogate is unpaired. -/
def assemblePieces : List Piece → Option (List Char)
  | [] => some []
  | .char c :: rest => (assemblePieces rest).map (c :: ·)
  | .unit high :: .unit low :: rest =>
    if isHighSurrogate high && isLowSurrogate low then
      (assemblePieces rest).map (pairedChar high low :: ·)
    else if isHighSurrogate high || isLowSurrogate high then none
    else (assemblePieces (.unit low :: rest)).map (Char.ofNat high :: ·)
  | .unit n :: rest =>
    if isHighSurrogate n || isLowSurrogate n then none
    else (assemblePieces rest).map (Char.ofNat n :: ·)

/-- The string token of parts listed last first. -/
def stringToken (pieces : List Piece) : Token :=
  .scalar (.string ((assemblePieces pieces.reverse).map String.ofList))

/-! ## Words -/

/-- The number that decimal digits denote. -/
def digitsValue (digits : List Char) : Nat :=
  digits.foldl (fun n c => 10 * n + (c.toNat - 48)) 0

/-- At least one digit, and nothing else. -/
def allDigits (cs : List Char) : Bool :=
  !cs.isEmpty && cs.all Char.isDigit

/-- Digits without a leading zero, or a single zero. -/
def isPlainInteger (cs : List Char) : Bool :=
  allDigits cs && (cs.head? != some '0' || cs.length == 1)

/-- An exponent: an optional sign and digits. -/
def isExponent : List Char → Bool
  | '+' :: rest | '-' :: rest => allDigits rest
  | rest => allDigits rest

/-- What may follow the integer part of a number: a fraction, an exponent, or both. -/
def isTail (cs : List Char) : Bool :=
  let (fraction, exponent) := cs.span fun c => c != 'e' && c != 'E'
  let fractionOk := match fraction with
    | [] => true
    | '.' :: digits => allDigits digits
    | _ => false
  let exponentOk := match exponent with
    | [] => true
    | _ :: rest => isExponent rest
  fractionOk && exponentOk

/-- An unsigned number: its integer part, and whether anything follows. -/
def unsigned? (cs : List Char) : Option (Nat × Bool) :=
  let (whole, tail) := cs.span Char.isDigit
  if isPlainInteger whole && isTail tail then some (digitsValue whole, !tail.isEmpty) else none

/-- The number a word denotes. -/
def number? (word : List Char) : Option Json :=
  match word with
  | '-' :: rest =>
    (unsigned? rest).map fun (n, more) =>
      if more || n == 0 then decimal (String.ofList word) else integer (-(n : Int))
  | _ =>
    (unsigned? word).map fun (n, more) =>
      if more then decimal (String.ofList word) else integer n

/-- The token of a word. -/
def wordToken? (word : List Char) : Option Token :=
  if word = ['n', 'u', 'l', 'l'] then some (.scalar null)
  else if word = ['t', 'r', 'u', 'e'] then some (.scalar (bool true))
  else if word = ['f', 'a', 'l', 's', 'e'] then some (.scalar (bool false))
  else (number? word).map .scalar

/-! ## The scanner -/

/-- What the scanner is in the middle of; characters and parts are listed last first. -/
inductive Mode where
  | between
  | word (chars : List Char)
  | inString (pieces : List Piece)
  | escape (pieces : List Piece)
  | hex (missing value : Nat) (pieces : List Piece)
deriving DecidableEq, Repr

/-- Reads one character between tokens. -/
def startToken (done : List Token) (c : Char) : List Token × Mode :=
  if isBlank c then (done, .between)
  else if c = '"' then (done, .inString [])
  else match punctuation? c with
    | some token => (token :: done, .between)
    | none => (done, .word [c])

/-- Reads one character; finished tokens are listed last first. -/
def scanChar (done : List Token) (mode : Mode) (c : Char) : Option (List Token × Mode) :=
  match mode with
  | .between => some (startToken done c)
  | .word chars =>
    if isBlank c || c = '"' || (punctuation? c).isSome then
      (wordToken? chars.reverse).map fun token => startToken (token :: done) c
    else some (done, .word (c :: chars))
  | .inString pieces =>
    if c = '"' then some (stringToken pieces :: done, .between)
    else if c = '\\' then some (done, .escape pieces)
    else if c.toNat < 32 then none
    else some (done, .inString (.char c :: pieces))
  | .escape pieces =>
    if c = 'u' then some (done, .hex 4 0 pieces)
    else (escaped? c).map fun e => (done, .inString (.char e :: pieces))
  | .hex missing value pieces =>
    (hexValue? c).map fun digit =>
      let value := 16 * value + digit
      if missing ≤ 1 then (done, .inString (.unit value :: pieces))
      else (done, .hex (missing - 1) value pieces)

/-- Ends the text: a word may be open, a string may not. -/
def finishScan (done : List Token) : Mode → Option (List Token)
  | .between => some done.reverse
  | .word chars => (wordToken? chars.reverse).map fun token => (token :: done).reverse
  | _ => none

/-- Cuts characters into tokens. -/
def scan (done : List Token) (mode : Mode) : List Char → Option (List Token)
  | [] => finishScan done mode
  | c :: rest =>
    match scanChar done mode c with
    | some (done, mode) => scan done mode rest
    | none => none

/-- The tokens of a text. -/
def tokens? (text : List Char) : Option (List Token) :=
  scan [] .between text

end PoolLint.Json

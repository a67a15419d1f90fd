import PoolLint.Json.Token
import PoolLint.Numeric.Width
import PoolLint.Toml.Value

/-!
# Settings text: strings, numbers and dates

The four kinds of strings, and the words that denote numbers, truth values, dates and times.
-/

namespace PoolLint.Toml

/-! ## Characters -/

/-- The blanks within a line. -/
def isBlank (c : Char) : Bool :=
  c = ' ' || c = '\t'

/-- A character that may stand in a comment or a string on one line. -/
def isLineChar (c : Char) : Bool :=
  c = '\t' || (32 ≤ c.toNat && c.toNat ≠ 127)

/-- Passes over blanks. -/
def skipBlanks (cs : List Char) : List Char :=
  cs.dropWhile isBlank

/-- Passes over blanks and ends of lines. -/
def skipLines : List Char → List Char
  | '\r' :: '\n' :: rest => skipLines rest
  | c :: rest => if isBlank c || c = '\n' then skipLines rest else c :: rest
  | [] => []

/-! ## Strings -/

/-- The character of an escape by number. -/
def charOfHex? (digits : List Char) : Option Char := do
  let n ← digits.foldlM (fun n c => (Json.hexValue? c).map (16 * n + ·)) 0
  if n.isValidChar then return Char.ofNat n else none

/-- Reads what follows a backslash. -/
def readEscape : List Char → Option (Char × List Char)
  | 'u' :: a :: b :: c :: d :: rest => (charOfHex? [a, b, c, d]).map (·, rest)
  | 'U' :: a :: b :: c :: d :: e :: f :: g :: h :: rest =>
    (charOfHex? [a, b, c, d, e, f, g, h]).map (·, rest)
  | 'b' :: rest => some ('\x08', rest)
  | 't' :: rest => some ('\t', rest)
  | 'n' :: rest => some ('\n', rest)
  | 'f' :: rest => some ('\x0c', rest)
  | 'r' :: rest => some ('\r', rest)
  | '"' :: rest => some ('"', rest)
  | '\\' :: rest => some ('\\', rest)
  | _ => none

/-- Reads a string on one line to its closing quote, at most `fuel` characters and escapes;
`done` is listed last first. -/
def readBasic (fuel : Nat) (done : List Char) (cs : List Char) : Option (String × List Char) :=
  match fuel, cs with
  | _, '"' :: rest => some (String.ofList done.reverse, rest)
  | fuel + 1, '\\' :: rest => do
    let (c, rest) ← readEscape rest
    readBasic fuel (c :: done) rest
  | fuel + 1, c :: rest => if isLineChar c then readBasic fuel (c :: done) rest else none
  | _, _ => none

/-- Reads a string without escapes on one line to its closing quote. -/
def readLiteral (cs : List Char) : Option (String × List Char) :=
  let (text, rest) := cs.span fun c => isLineChar c && c != '\''
  match rest with
  | '\'' :: rest => some (String.ofList text, rest)
  | _ => none

/-- How many of a run of quotes belong to the text before the closing three; `none` if the
run does not close the string. -/
def closingQuotes? (quote : Char) (cs : List Char) : Option Nat :=
  let run := (cs.takeWhile (· = quote)).length
  if run < 3 then none else some (min (run - 3) 2)

/-- A backslash at the end of a line. -/
def continuesLine (cs : List Char) : Bool :=
  match skipBlanks cs with
  | '\n' :: _ | '\r' :: '\n' :: _ => true
  | _ => false

/-- Reads a string over several lines, at most `fuel` characters and escapes. Line ends are
single characters in the text, and a backslash at the end of a line takes all blanks and
line ends after it with it. -/
def readMultiline (quote : Char) (fuel : Nat) (done : List Char) (cs : List Char) :
    Option (String × List Char) :=
  match closingQuotes? quote cs, fuel, cs with
  | some extra, _, cs =>
    some (String.ofList (List.replicate extra quote ++ done).reverse, cs.drop (extra + 3))
  | none, fuel + 1, '\r' :: '\n' :: rest => readMultiline quote fuel ('\n' :: done) rest
  | none, fuel + 1, c :: rest =>
    if c = '\\' && quote = '"' then
      if continuesLine rest then readMultiline quote fuel done (skipLines rest)
      else do
        let (c, rest) ← readEscape rest
        readMultiline quote fuel (c :: done) rest
    else if c = '\n' || isLineChar c then readMultiline quote fuel (c :: done) rest
    else none
  | none, _, _ => none

/-- Passes over a line end right after the opening quotes. -/
def skipFirstLineEnd : List Char → List Char
  | '\n' :: rest => rest
  | '\r' :: '\n' :: rest => rest
  | cs => cs

/-- Reads a string of any kind, at most `fuel` characters and escapes. -/
def readString (fuel : Nat) : List Char → Option (String × List Char)
  | '"' :: '"' :: '"' :: rest => readMultiline '"' fuel [] (skipFirstLineEnd rest)
  | '\'' :: '\'' :: '\'' :: rest => readMultiline '\'' fuel [] (skipFirstLineEnd rest)
  | '"' :: rest => readBasic fuel [] rest
  | '\'' :: rest => readLiteral rest
  | _ => none

/-! ## Numbers -/

/-- Digits, single underscores between them allowed; yields the digits. -/
def groupedDigits? (isDigit : Char → Bool) : List Char → Option (List Char)
  | [c] => if isDigit c then some [c] else none
  | c :: '_' :: rest => if isDigit c then (groupedDigits? isDigit rest).map (c :: ·) else none
  | c :: rest => if isDigit c then (groupedDigits? isDigit rest).map (c :: ·) else none
  | [] => none

/-- The number that digits of a base denote. -/
def numberIn? (base : Nat) (word : List Char) : Option Nat := do
  let digits ← groupedDigits? (fun c => (Json.hexValue? c).any (· < base)) word
  digits.foldlM (fun n c => (Json.hexValue? c).map (base * n + ·)) 0

/-- Separates a sign from what follows; the first part tells whether it is a minus. -/
def splitSign : List Char → Bool × List Char
  | '-' :: rest => (true, rest)
  | '+' :: rest => (false, rest)
  | cs => (false, cs)

/-- A decimal number without superfluous zeros in front. -/
def decimal? (word : List Char) : Option Nat :=
  match word with
  | '0' :: _ :: _ => none
  | _ => numberIn? 10 word

/-- An integer, within the range of 64 bits. -/
def integer? (word : List Char) : Option Toml := do
  let value : Int ← match word with
    | '0' :: 'x' :: digits => (numberIn? 16 digits).map fun n => (n : Int)
    | '0' :: 'o' :: digits => (numberIn? 8 digits).map fun n => (n : Int)
    | '0' :: 'b' :: digits => (numberIn? 2 digits).map fun n => (n : Int)
    | _ =>
      let (negative, digits) := splitSign word
      (decimal? digits).map fun n => if negative then -(n : Int) else (n : Int)
  return .integer (← signed? 64 value)

/-- The digits of a number with underscores. -/
def digitsOf (cs : List Char) : List Char :=
  cs.filter Char.isDigit

/-- The least number that rounds to infinity in floating-point numbers of 64 bits. -/
def floatBound : Nat :=
  capacity 1024 - capacity 970

/-- The number `n * 10 ^ (exponent - fraction)`, with as many digits as given, rounds to
infinity. -/
def roundsToInfinity (digits n exponent fraction : Nat) (negativeExponent : Bool) : Bool :=
  let down := fraction + if negativeExponent then exponent else 0
  let up := if negativeExponent then 0 else exponent
  if n = 0 then false
  else if down + 400 < up then true
  else if up + digits < down then false
  else floatBound * Nat.pow 10 (down - up) ≤ n * Nat.pow 10 (up - down)

/-- A number with a fraction or an exponent, or one of the special numbers. A positive number
that rounds to infinity is refused. -/
def float? (word : List Char) : Option Toml :=
  let (negative, unsigned) := splitSign word
  if unsigned = ['i', 'n', 'f'] || unsigned = ['n', 'a', 'n'] then some .float
  else
    let (number, exponent) := unsigned.span fun c => c != 'e' && c != 'E'
    let (whole, fraction) := number.span (· != '.')
    let fractionOk := match fraction with
      | [] => !exponent.isEmpty
      | _ :: digits => (numberIn? 10 digits).isSome
    let (negativeExponent, exponentDigits) := splitSign (exponent.drop 1)
    let exponentOk := exponent.isEmpty || (numberIn? 10 exponentDigits).isSome
    let digits := digitsOf number
    let finite := negative || !roundsToInfinity digits.length (Json.digitsValue digits)
      (Json.digitsValue (digitsOf exponentDigits)) (digitsOf fraction).length negativeExponent
    if (decimal? whole).isSome && fractionOk && exponentOk && finite then some .float else none

/-! ## Dates and times -/

/-- A number of exactly so many digits. -/
def fixedNumber? (width : Nat) (cs : List Char) : Option Nat :=
  if cs.length = width && Json.allDigits cs then some (Json.digitsValue cs) else none

/-- The number of days of a month. -/
def daysIn (year month : Nat) : Nat :=
  if month = 2 then
    if year % 4 = 0 && (year % 100 ≠ 0 || year % 400 = 0) then 29 else 28
  else if month ∈ [4, 6, 9, 11] then 30 else 31

/-- A calendar date `YYYY-MM-DD`. -/
def isDate (cs : List Char) : Bool :=
  match fixedNumber? 4 (cs.take 4), fixedNumber? 2 ((cs.drop 5).take 2),
      fixedNumber? 2 (cs.drop 8) with
  | some year, some month, some day =>
    cs[4]? = some '-' && cs[7]? = some '-' && 1 ≤ month && month ≤ 12 && 1 ≤ day
      && day ≤ daysIn year month
  | _, _, _ => false

/-- Hours and minutes `HH:MM`. -/
def isClock (cs : List Char) : Bool :=
  match fixedNumber? 2 (cs.take 2), fixedNumber? 2 (cs.drop 3) with
  | some hour, some minute => cs[2]? = some ':' && hour ≤ 23 && minute ≤ 59
  | _, _ => false

/-- A time of day `HH:MM:SS` with an optional fraction. -/
def isTime (cs : List Char) : Bool :=
  let seconds := (cs.drop 6).take 2
  let fraction := cs.drop 8
  isClock (cs.take 5) && cs[5]? = some ':' && (fixedNumber? 2 seconds).any (· ≤ 60)
    && match fraction with
      | [] => true
      | '.' :: digits => Json.allDigits digits
      | _ => false

/-- A time of day with an optional distance from universal time. -/
def isOffsetTime (cs : List Char) : Bool :=
  let (time, offset) := cs.span fun c => c.isDigit || c = ':' || c = '.'
  isTime time && match offset with
    | [] => true
    | ['Z'] | ['z'] => true
    | _ :: clock => isClock clock && (offset.head? = some '+' || offset.head? = some '-')

/-- A date, a time, or both with a `T` between them. -/
def date? (word : List Char) : Option Toml :=
  let rest := word.drop 10
  let valid := isTime word || isDate (word.take 10) && match rest with
    | [] => true
    | mark :: time => (mark = 'T' || mark = 't') && isOffsetTime time
  if valid then some .date else none

/-! ## Words -/

/-- A character of a word. -/
def isWordChar (c : Char) : Bool :=
  c.isAlphanum || c ∈ ['+', '-', '_', '.', ':']

/-- The value of a word. -/
def ofWord? (word : List Char) : Option Toml :=
  if word = ['t', 'r', 'u', 'e'] then some (.bool true)
  else if word = ['f', 'a', 'l', 's', 'e'] then some (.bool false)
  else integer? word <|> float? word <|> date? word

/-- Reads a word. A date may be followed by a blank and a time. -/
def readWord (cs : List Char) : Option (Toml × List Char) :=
  let (word, rest) := cs.span isWordChar
  let (time, afterTime) := (rest.drop 1).span isWordChar
  if isDate word && rest.head? = some ' ' && isOffsetTime time then some (.date, afterTime)
  else (ofWord? word).map (·, rest)

end PoolLint.Toml

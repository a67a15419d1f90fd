/-!
# JSON values and their text

A value keeps what later decisions depend on: object fields in their order with repetitions,
integers apart from other numbers, and strings that denote no text because one of their
escapes leaves a surrogate unpaired. Text is written in one of two layouts, without any
blanks or indented by two spaces.
-/

namespace PoolLint

/-- A JSON value. A number is an `integer` if it is written with digits and at most a minus
sign, and is not `-0`; every other number is kept as written. A string or key without text is
one with an unpaired surrogate. -/
inductive Json where
  | null
  | bool (value : Bool)
  | integer (value : Int)
  | decimal (written : String)
  | string (text : Option String)
  | array (items : List Json)
  | object (fields : List (Option String × Json))
deriving Repr

namespace Json

/-! ## Building values -/

/-- A string value. -/
def text (s : String) : Json :=
  string (some s)

/-- A natural number. -/
def nat (n : Nat) : Json :=
  integer n

/-- An object with the given fields. -/
def record (fields : List (String × Json)) : Json :=
  object (fields.map fun (key, value) => (some key, value))

/-- A value that may be absent, written as `null`. -/
def nullable {α : Type} (encode : α → Json) : Option α → Json
  | some a => encode a
  | none => null

/-- A list of values. -/
def list {α : Type} (encode : α → Json) (as : List α) : Json :=
  array (as.map encode)

/-! ## Strings -/

/-- A digit of a `\u` escape. -/
def hexDigit (n : Nat) : Char :=
  if n < 10 then Char.ofNat (48 + n) else Char.ofNat (87 + n)

/-- A character inside quotes: quote, backslash and control characters are escaped, all
others stand for themselves. -/
def escapeChar (c : Char) : List Char :=
  if c = '"' then ['\\', '"']
  else if c = '\\' then ['\\', '\\']
  else if c = '\x08' then ['\\', 'b']
  else if c = '\x0c' then ['\\', 'f']
  else if c = '\n' then ['\\', 'n']
  else if c = '\r' then ['\\', 'r']
  else if c = '\t' then ['\\', 't']
  else if c.toNat < 32 then ['\\', 'u', '0', '0', hexDigit (c.toNat / 16), hexDigit (c.toNat % 16)]
  else [c]

/-- A string in quotes. -/
def quoted (s : String) : String :=
  "\"" ++ String.ofList (s.toList.flatMap escapeChar) ++ "\""

/-- A string or key; one without text is written as if empty. -/
def quotedText (s : Option String) : String :=
  quoted (s.getD "")

/-! ## Layouts -/

mutual

/-- The value without any blanks. -/
def compact : Json → String
  | null => "null"
  | bool true => "true"
  | bool false => "false"
  | integer n => toString n
  | decimal written => written
  | string s => quotedText s
  | array items => "[" ++ compactItems items ++ "]"
  | object fields => "\x7b" ++ compactFields fields ++ "\x7d"

/-- Array items separated by commas. -/
def compactItems : List Json → String
  | [] => ""
  | [v] => compact v
  | v :: w :: rest => compact v ++ "," ++ compactItems (w :: rest)

/-- Object fields separated by commas. -/
def compactFields : List (Option String × Json) → String
  | [] => ""
  | [(key, v)] => quotedText key ++ ":" ++ compact v
  | (key, v) :: f :: rest => quotedText key ++ ":" ++ compact v ++ "," ++ compactFields (f :: rest)

end

/-- The start of a line that is nested `depth` levels deep. -/
def newline (depth : Nat) : String :=
  "\n" ++ String.ofList (List.replicate (2 * depth) ' ')

mutual

/-- The value with every item and field on a line of its own, indented below the brackets
that enclose it; empty arrays and objects stay on their line. -/
def indented (depth : Nat) : Json → String
  | array (v :: rest) =>
    "[" ++ newline (depth + 1) ++ indentedItems (depth + 1) (v :: rest) ++ newline depth ++ "]"
  | object (f :: rest) =>
    "\x7b" ++ newline (depth + 1) ++ indentedFields (depth + 1) (f :: rest) ++ newline depth
      ++ "\x7d"
  | array [] => "[]"
  | object [] => "\x7b\x7d"
  | null => "null"
  | bool true => "true"
  | bool false => "false"
  | integer n => toString n
  | decimal written => written
  | string s => quotedText s

/-- Array items on lines of their own. -/
def indentedItems (depth : Nat) : List Json → String
  | [] => ""
  | [v] => indented depth v
  | v :: w :: rest => indented depth v ++ "," ++ newline depth ++ indentedItems depth (w :: rest)

/-- Object fields on lines of their own. -/
def indentedFields (depth : Nat) : List (Option String × Json) → String
  | [] => ""
  | [(key, v)] => quotedText key ++ ": " ++ indented depth v
  | (key, v) :: f :: rest =>
    quotedText key ++ ": " ++ indented depth v ++ "," ++ newline depth
      ++ indentedFields depth (f :: rest)

end

/-- The value over several lines. -/
def pretty (v : Json) : String :=
  indented 0 v

end Json

end PoolLint

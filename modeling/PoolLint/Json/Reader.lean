import PoolLint.Json.Token

/-!
# Reading JSON

A value is put together from its tokens with a stack of the arrays and objects that are still
open. Objects keep all their fields, repeated ones included.
-/

namespace PoolLint.Json

/-- An array or object that is still open, its content listed last first. -/
inductive Context where
  | array (items : List Json)
  | object (fields : List (Option String × Json)) (key : Option String)

/-- What must come next. -/
inductive Expectation where
  /-- A value; only right after an opening bracket may the array close instead. -/
  | value (mayClose : Bool)
  /-- A key; only right after an opening brace may the object close instead. -/
  | key (mayClose : Bool)
  /-- The colon after a key. -/
  | colon
  /-- A comma or the closing bracket. -/
  | separator
  /-- Nothing. -/
  | done (value : Json)

/-- Puts a finished value where it belongs. -/
def deliver (v : Json) : List Context → List Context × Expectation
  | [] => ([], .done v)
  | .array items :: outer => (.array (v :: items) :: outer, .separator)
  | .object fields key :: outer => (.object ((key, v) :: fields) none :: outer, .separator)

/-- Reads one token. -/
def readToken (stack : List Context) (expected : Expectation) (token : Token) :
    Option (List Context × Expectation) :=
  match expected, token, stack with
  | .value _, .scalar v, _ => some (deliver v stack)
  | .value _, .openBracket, _ => some (.array [] :: stack, .value true)
  | .value _, .openBrace, _ => some (.object [] none :: stack, .key true)
  | .value true, .closeBracket, .array items :: outer => some (deliver (.array items.reverse) outer)
  | .key _, .scalar (.string key), .object fields _ :: outer =>
    some (.object fields key :: outer, .colon)
  | .key true, .closeBrace, .object fields _ :: outer =>
    some (deliver (.object fields.reverse) outer)
  | .colon, .colon, _ => some (stack, .value false)
  | .separator, .comma, .array _ :: _ => some (stack, .value false)
  | .separator, .comma, .object _ _ :: _ => some (stack, .key false)
  | .separator, .closeBracket, .array items :: outer => some (deliver (.array items.reverse) outer)
  | .separator, .closeBrace, .object fields _ :: outer =>
    some (deliver (.object fields.reverse) outer)
  | _, _, _ => none

/-- Reads the tokens of one value. -/
def readTokens (stack : List Context) (expected : Expectation) : List Token → Option Json
  | [] =>
    match expected with
    | .done v => some v
    | _ => none
  | token :: rest =>
    match readToken stack expected token with
    | some (stack, expected) => readTokens stack expected rest
    | none => none

/-- The value a text denotes, if it is JSON. -/
def parse? (text : String) : Option Json :=
  (tokens? text.toList).bind (readTokens [] (.value false))

end PoolLint.Json

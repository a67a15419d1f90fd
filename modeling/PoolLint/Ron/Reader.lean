import PoolLint.Ron.Token

/-!
# Reading the object notation

A text may begin with attributes that enable extensions or name the type of what it holds; one
value follows. It is put together from its tokens with a stack of the groups that are still
open. Every bracket takes a comma after its last element.
-/

namespace PoolLint.Ron

/-! ## Attributes -/

/-- Reads the names of extensions and the end of their attribute. -/
def readExtensions (e : Extensions) : List Token → Option (Extensions × List Token)
  | .word w :: .comma :: .closing .paren :: .closing .square :: rest
  | .word w :: .closing .paren :: .closing .square :: rest => do
    return (← e.enable w.name, rest)
  | .word w :: .comma :: rest => do
    readExtensions (← e.enable w.name) rest
  | _ => none

/-- Reads what an attribute says, up to its end: the extensions it enables, or a type or a
schema, which nothing depends on. -/
def readAttribute (e : Extensions) : List Token → Option (Extensions × List Token)
  | .word ⟨"enable", false⟩ :: .opening .paren :: rest => readExtensions e rest
  | .word ⟨"type", false⟩ :: .equals :: .scalar (.text _) :: .closing .square :: rest
  | .word ⟨"schema", false⟩ :: .equals :: .scalar (.text _) :: .closing .square :: rest =>
    some (e, rest)
  | _ => none

/-- Reads the attributes at the start of a text, at most `fuel` of them. -/
def readAttributes (fuel : Nat) (e : Extensions) (tokens : List Token) :
    Option (Extensions × List Token) :=
  match fuel, tokens with
  | fuel + 1, .hash :: .bang :: .opening .square :: rest => do
    let (e, rest) ← readAttribute e rest
    readAttributes fuel e rest
  | _, _ => some (e, tokens)

/-! ## Open groups -/

/-- What a group of elements is. -/
inductive Group where
  | list
  | map
  /-- Parentheses, with the name before them, if any. -/
  | fields (tag : Option String)
  /-- The parentheses after `Some`. -/
  | optional
  /-- What follows a `Some` without parentheses. -/
  | bareOptional
deriving DecidableEq, Repr

/-- An element of a group. -/
inductive Entry where
  | plain (value : Ron)
  | keyed (key value : Ron)

/-- A group that is still open, with its elements, last first, and the key whose value comes
next. -/
structure Context where
  group : Group
  entries : List Entry
  key : Option Ron

/-- The elements, if none has a key. -/
def plainItems (entries : List Entry) : Option (List Ron) :=
  entries.mapM fun
    | .plain v => some v
    | .keyed _ _ => none

/-- The elements, if all have keys. -/
def keyedItems (entries : List Entry) : Option (List (Ron × Ron)) :=
  entries.mapM fun
    | .plain _ => none
    | .keyed k v => some (k, v)

/-- The elements, if all have names for keys. -/
def namedItems (entries : List Entry) : Option (List (String × Ron)) :=
  entries.mapM fun
    | .keyed (.word name) v => some (name, v)
    | _ => none

/-- The value that parentheses hold: a tuple or a record. -/
def fieldsValue (tag : Option String) (entries : List Entry) : Option Ron :=
  ((plainItems entries).map (.tuple tag)) <|> ((namedItems entries).map (.record tag))

/-- The value that is inside `Some`: a single one, or one whose own parentheses are left
out. -/
def optionalValue (e : Extensions) (entries : List Entry) : Option Ron :=
  match entries with
  | [.plain v] => some v
  | _ => if e.unwrapVariantNewtypes then fieldsValue none entries else none

/-- The value of a group that the bracket closes. -/
def Context.close (e : Extensions) (c : Context) (b : Bracket) : Option Ron :=
  let entries := c.entries.reverse
  match c.group, b with
  | .list, .square => (plainItems entries).map .list
  | .map, .brace => (keyedItems entries).map .map
  | .fields tag, .paren => fieldsValue tag entries
  | .optional, .paren => (optionalValue e entries).map .present
  | _, _ => none

/-- Adds a value to a group. -/
def Context.add (c : Context) (v : Ron) : Context :=
  let entry := match c.key with
    | some key => .keyed key v
    | none => .plain v
  { c with entries := entry :: c.entries, key := none }

/-! ## Values -/

/-- What comes next. -/
inductive Expectation where
  /-- An element; where it may be missing, the bracket may close instead. -/
  | item (mayClose : Bool)
  /-- What follows a word: its parentheses, or what follows a value. -/
  | afterWord (word : Word)
  /-- What follows a value: a colon, a comma, or a closing bracket. -/
  | after (value : Ron)

/-- The value of a word; `Some` alone has none. -/
def Word.value? (w : Word) : Option Ron :=
  match w with
  | ⟨"true", false⟩ => some (.truth true)
  | ⟨"false", false⟩ => some (.truth false)
  | ⟨"None", false⟩ => some .absent
  | ⟨"Some", false⟩ => none
  | w => some (if !w.raw && numberWords.contains w.name then .other else .word w.name)

/-- The group that parentheses after a word are; keywords have none, except `Some`. -/
def Word.group? (w : Word) : Option Group :=
  if w.raw || !keywords.contains w.name then some (.fields (some w.name))
  else if w.name = "Some" then some .optional
  else none

/-- The value that is there if nothing more belongs to it. -/
def Expectation.value? : Expectation → Option Ron
  | item _ => none
  | afterWord w => w.value?
  | after v => some v

/-- A value with the `Some` without parentheses before it. -/
def wrap (stack : List Context) (v : Ron) : List Context × Ron :=
  match stack with
  | c :: outer => if c.group = .bareOptional then wrap outer (.present v) else (stack, v)
  | [] => ([], v)

/-- Opens a group. -/
def openGroup (g : Group) (stack : List Context) : List Context × Expectation :=
  (⟨g, [], none⟩ :: stack, .item true)

/-- Closes the innermost group. -/
def closeGroup (e : Extensions) (b : Bracket) :
    List Context → Option (List Context × Expectation)
  | c :: outer => (c.close e b).map fun v => (outer, .after v)
  | [] => none

/-- Reads a token after a value. -/
def readAfter (e : Extensions) (stack : List Context) (v : Ron) (token : Token) :
    Option (List Context × Expectation) :=
  match token, stack with
  | .comma, c :: outer => some (c.add v :: outer, .item true)
  | .closing b, c :: outer => closeGroup e b (c.add v :: outer)
  | .colon, c :: outer =>
    if c.group = .map && c.key.isNone then some ({ c with key := some v } :: outer, .item false)
    else none
  | _, _ => none

/-- Reads the first token of an element, or the bracket that closes a group instead. Every open
group takes up nesting, so that there are no more of them than the nesting allows. -/
def readItem (e : Extensions) (stack : List Context) (mayClose : Bool) (token : Token) :
    Option (List Context × Expectation) :=
  if maxDepth < stack.length then none
  else match token with
    | .closing b => if mayClose then closeGroup e b stack else none
    | .word w => some (stack, .afterWord w)
    | .scalar v => some (stack, .after v)
    | .unit => some (stack, .after .unit)
    | .opening .paren => some (openGroup (.fields none) stack)
    | .opening .square => some (openGroup .list stack)
    | .opening .brace => some (openGroup .map stack)
    | _ => none

/-- Reads a token after a word: a colon makes it the name of a field, parentheses are its
group, and `Some` may go without parentheses. -/
def readAfterWord (e : Extensions) (stack : List Context) (w : Word) (token : Token) :
    Option (List Context × Expectation) :=
  match token, stack, w.value? with
  | .colon, ⟨.fields tag, entries, none⟩ :: outer, _ =>
    some (⟨.fields tag, entries, some (.word w.name)⟩ :: outer, .item false)
  | .colon, ⟨.optional, entries, none⟩ :: outer, _ =>
    some (⟨.optional, entries, some (.word w.name)⟩ :: outer, .item false)
  | .opening .paren, _, _ => w.group?.map (openGroup · stack)
  | .unit, _, _ => do closeGroup e .paren (openGroup (← w.group?) stack).1
  | _, _, none =>
    if e.implicitSome then readItem e (⟨.bareOptional, [], none⟩ :: stack) false token else none
  | _, _, some v =>
    let (stack, v) := wrap stack v
    readAfter e stack v token

/-- Reads one token. -/
def readNext (e : Extensions) (stack : List Context) (expected : Expectation) (token : Token) :
    Option (List Context × Expectation) :=
  match expected with
  | .item mayClose => readItem e stack mayClose token
  | .afterWord w => readAfterWord e stack w token
  | .after v =>
    let (stack, v) := wrap stack v
    readAfter e stack v token

/-- Reads the tokens of one value. -/
def readTokens (e : Extensions) (stack : List Context) (expected : Expectation) :
    List Token → Option Ron
  | [] => do
    match wrap stack (← expected.value?) with
    | ([], v) => some v
    | _ => none
  | token :: rest => do
    let (stack, expected) ← readNext e stack expected token
    readTokens e stack expected rest

/-- The value of a text, with the extensions it enables. -/
def parse? (text : String) : Option (Extensions × Ron) := do
  let tokens ← tokens? text.toList
  let (e, tokens) ← readAttributes tokens.length .none tokens
  return (e, ← readTokens e [] (.item false) tokens)

end PoolLint.Ron

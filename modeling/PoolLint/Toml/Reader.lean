import PoolLint.Toml.Scalar

/-!
# Reading settings text

The text is a sequence of lines: headers that open a table or add one to an array of tables,
and definitions of keys in the table opened last. The lines are read first and carried out
afterwards.
-/

namespace PoolLint.Toml

/-- Arrays and inline tables are nested less deep than this, and keys have fewer parts. -/
def maxDepth : Nat := 80

/-! ## Keys -/

/-- A character of an unquoted key. -/
def isKeyChar (c : Char) : Bool :=
  c.isAlphanum || c = '_' || c = '-'

/-- Reads one part of a key, quoted with at most `fuel` characters and escapes, or not
quoted. -/
def readKeyPart (fuel : Nat) (cs : List Char) : Option (String × List Char) :=
  match cs with
  | '"' :: rest => readBasic fuel [] rest
  | '\'' :: rest => readLiteral rest
  | _ =>
    let (key, rest) := cs.span isKeyChar
    if key.isEmpty then none else some (String.ofList key, rest)

/-- Reads the parts of a key with dots between them, at most `limit` of them. -/
def readKeyParts (fuel limit : Nat) (cs : List Char) : Option (List String × List Char) :=
  match limit with
  | 0 => none
  | limit + 1 => do
    let (part, rest) ← readKeyPart fuel cs
    match skipBlanks rest with
    | '.' :: rest => do
      let (parts, rest) ← readKeyParts fuel limit (skipBlanks rest)
      return (part :: parts, rest)
    | rest => return ([part], rest)

/-- Reads a key. -/
def readKey (fuel : Nat) (cs : List Char) : Option (List String × List Char) :=
  readKeyParts fuel (maxDepth - 1) cs

/-! ## Values -/

/-- Passes over blanks, line ends and comments, at most `fuel` comments. -/
def skipFiller (fuel : Nat) (cs : List Char) : Option (List Char) :=
  match fuel, skipLines cs with
  | fuel + 1, '#' :: rest =>
    match rest.dropWhile isLineChar with
    | '\n' :: rest => skipFiller fuel rest
    | '\r' :: '\n' :: rest => skipFiller fuel rest
    | _ => none
  | _, rest => some rest

mutual

/-- Reads a value, with arrays and tables nested at most `depth` deep. -/
def readValue (depth fuel : Nat) (cs : List Char) : Option (Toml × List Char) :=
  match depth, fuel, cs with
  | depth + 1, fuel + 1, '[' :: rest => do
    let (items, rest) ← readItems depth fuel rest
    return (.array items, rest)
  | depth + 1, fuel + 1, '\x7b' :: rest =>
    match skipBlanks rest with
    | '\x7d' :: rest => some (.table [], rest)
    | rest => do
      let (d, rest) ← readPairs depth fuel (Draft.explicit []) rest
      return (d.finish, rest)
  | _, _, '"' :: _ | _, _, '\'' :: _ =>
    (readString fuel cs).map fun (s, rest) => (.string s, rest)
  | _, _, _ => readWord cs

/-- Reads the items of an array up to its closing bracket. -/
def readItems (depth fuel : Nat) (cs : List Char) : Option (List Toml × List Char) :=
  match fuel with
  | 0 => none
  | fuel + 1 => do
    match ← skipFiller fuel cs with
    | ']' :: rest => return ([], rest)
    | cs => do
      let (item, rest) ← readValue depth fuel cs
      match ← skipFiller fuel rest with
      | ',' :: rest => do
        let (items, rest) ← readItems depth fuel rest
        return (item :: items, rest)
      | ']' :: rest => return ([item], rest)
      | _ => none

/-- Reads the definitions of an inline table up to its closing brace; they stand on one line,
and no comma follows the last. -/
def readPairs (depth fuel : Nat) (d : Draft) (cs : List Char) : Option (Draft × List Char) :=
  match fuel with
  | 0 => none
  | fuel + 1 => do
    let (path, rest) ← readKey fuel (skipBlanks cs)
    match rest with
    | '=' :: rest => do
      let (v, rest) ← readValue depth fuel (skipBlanks rest)
      let d ← define path v d
      match skipBlanks rest with
      | ',' :: rest => readPairs depth fuel d rest
      | '\x7d' :: rest => return (d, rest)
      | _ => none
    | _ => none

end

/-! ## Lines -/

/-- What a line says. -/
inductive Line where
  | table (path : List String)
  | arrayTable (path : List String)
  | define (path : List String) (value : Toml)
  | empty

/-- Reads to the end of a line: blanks and a comment. -/
def endLine (cs : List Char) : Option (List Char) :=
  let rest := match skipBlanks cs with
    | '#' :: rest => rest.dropWhile isLineChar
    | rest => rest
  match rest with
  | [] => some []
  | '\n' :: rest => some rest
  | '\r' :: '\n' :: rest => some rest
  | _ => none

/-- Reads one line without its end; `fuel` bounds what its key and its value hold. -/
def readLine (fuel : Nat) (cs : List Char) : Option (Line × List Char) :=
  match skipBlanks cs with
  | '[' :: '[' :: rest => do
    let (path, rest) ← readKey fuel (skipBlanks rest)
    match rest with
    | ']' :: ']' :: rest => return (.arrayTable path, rest)
    | _ => none
  | '[' :: rest => do
    let (path, rest) ← readKey fuel (skipBlanks rest)
    match rest with
    | ']' :: rest => return (.table path, rest)
    | _ => none
  | [] => some (.empty, [])
  | '#' :: rest => some (.empty, '#' :: rest)
  | '\n' :: rest => some (.empty, '\n' :: rest)
  | '\r' :: rest => some (.empty, '\r' :: rest)
  | cs => do
    let (path, rest) ← readKey fuel cs
    match rest with
    | '=' :: rest => do
      let (v, rest) ← readValue (maxDepth - 1) fuel (skipBlanks rest)
      return (.define path v, rest)
    | _ => none

/-- Reads the lines of a text, at most `fuel` of them. -/
def readLines (fuel : Nat) (cs : List Char) : Option (List Line) :=
  match fuel, cs with
  | _, [] => some []
  | 0, _ => none
  | fuel + 1, cs => do
    let (line, rest) ← readLine fuel cs
    let lines ← readLines fuel (← endLine rest)
    return line :: lines

/-- The table under construction, and the path of the header that is open. -/
structure Document where
  root : Draft
  path : List String

/-- Carries out a line. -/
def Document.apply (doc : Document) : Line → Option Document
  | .empty => some doc
  | .table path => do return ⟨← openTable path doc.root, path⟩
  | .arrayTable path => do return ⟨← openArrayTable path doc.root, path⟩
  | .define path v => do
    return { doc with root := ← updateAt false (Toml.define path v) doc.path doc.root }

/-- The table that a text describes. A mark of byte order at its start is passed over. -/
def parse? (text : String) : Option Toml := do
  let cs := match text.toList with
    | '\ufeff' :: rest => rest
    | cs => cs
  let doc ← (← readLines (2 * cs.length + 2) cs).foldlM Document.apply ⟨.explicit [], []⟩
  return doc.root.finish

end PoolLint.Toml

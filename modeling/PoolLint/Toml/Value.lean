/-!
# Settings text: values

Values of a settings file. Floating-point numbers and dates are recognised and checked, but
no setting holds one, so that nothing of them is kept.
-/

namespace PoolLint

/-- A value of a settings file. -/
inductive Toml where
  | string (text : String)
  | integer (value : Int)
  | float
  | bool (value : Bool)
  | date
  | array (items : List Toml)
  | table (entries : List (String × Toml))
deriving Repr

namespace Toml

/-! ## Tables under construction

A settings file defines tables piece by piece. A table is `implicit` as long as it is only
mentioned on the way to another one, and `dotted` if dotted keys mentioned it; both decide
how it may still be extended.
-/

/-- What a key of a table under construction stands for. -/
inductive Node where
  | value (v : Toml)
  | table (implicit dotted : Bool) (entries : List (String × Node))
  /-- An array of tables, one per header. -/
  | tables (items : List (List (String × Node)))
deriving Repr

/-- A table under construction. -/
structure Draft where
  implicit : Bool
  dotted : Bool
  entries : List (String × Node)

/-- A table defined by its own header. -/
def Draft.explicit (entries : List (String × Node)) : Draft :=
  ⟨false, false, entries⟩

/-- The draft as part of another one. -/
def Draft.node (d : Draft) : Node :=
  .table d.implicit d.dotted d.entries

/-- Replaces or adds an entry. -/
def setEntry (key : String) (node : Node) : List (String × Node) → List (String × Node)
  | [] => [(key, node)]
  | (k, n) :: rest => if k = key then (key, node) :: rest else (k, n) :: setEntry key node rest

/-- Sets an entry of a draft. -/
def Draft.set (d : Draft) (key : String) (node : Node) : Draft :=
  { d with entries := setEntry key node d.entries }

/-- Applies a change to the table at the end of a path. Tables on the way are created as
needed; in an array of tables the last one is meant. On a path of dotted keys a table with a
header of its own must not be entered. -/
def updateAt (byDots : Bool) (change : Draft → Option Draft) :
    List String → Draft → Option Draft
  | [], d => change d
  | key :: path, d =>
    match d.entries.lookup key with
    | none => do return d.set key (← updateAt byDots change path ⟨true, byDots, []⟩).node
    | some (.value _) => none
    | some (.table implicit dotted entries) =>
      if byDots && !implicit then none
      else do
        return d.set key (← updateAt byDots change path ⟨implicit, dotted, entries⟩).node
    | some (.tables items) =>
      match items.getLast? with
      | none => none
      | some entries => do
        let last ← updateAt byDots change path (.explicit entries)
        return d.set key (.tables (items.dropLast ++ [last.entries]))

/-- Splits off the last key of a path. -/
def splitLast (path : List String) : Option (List String × String) :=
  path.getLast?.map (path.dropLast, ·)

/-- Defines a key, which may be dotted. The table it belongs to must be one of dotted keys
if and only if the key is dotted. -/
def define (path : List String) (v : Toml) (d : Draft) : Option Draft := do
  let (parent, key) ← splitLast path
  updateAt true (fun table =>
    if table.dotted = parent.isEmpty || (table.entries.lookup key).isSome then none
    else some (table.set key (.value v))) parent d

/-- Opens the table of a header. Only a table that was merely mentioned may get one. -/
def openTable (path : List String) (root : Draft) : Option Draft := do
  let (parent, key) ← splitLast path
  updateAt false (fun table =>
    match table.entries.lookup key with
    | none => some (table.set key (Draft.explicit []).node)
    | some (.table true false entries) => some (table.set key (Draft.explicit entries).node)
    | some _ => none) parent root

/-- Adds a table to the array of a header. -/
def openArrayTable (path : List String) (root : Draft) : Option Draft := do
  let (parent, key) ← splitLast path
  updateAt false (fun table =>
    match table.entries.lookup key with
    | none => some (table.set key (.tables [[]]))
    | some (.tables items) => some (table.set key (.tables (items ++ [[]])))
    | some _ => none) parent root

mutual

/-- The value of a finished part. -/
def Node.value? : Node → Toml
  | .value v => v
  | .table _ _ entries => .table (entryValues entries)
  | .tables items => .array (tableValues items)

/-- The values of finished entries. -/
def entryValues : List (String × Node) → List (String × Toml)
  | [] => []
  | (key, node) :: rest => (key, node.value?) :: entryValues rest

/-- The values of finished tables. -/
def tableValues : List (List (String × Node)) → List Toml
  | [] => []
  | entries :: rest => .table (entryValues entries) :: tableValues rest

end

/-- The value of a finished table. -/
def Draft.finish (d : Draft) : Toml :=
  .table (entryValues d.entries)

end Toml

end PoolLint

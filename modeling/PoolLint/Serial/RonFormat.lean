import PoolLint.Ron.Reader
import PoolLint.Serial.ClassFile

/-!
# The object notation as a data format

A record has named fields between parentheses, after its type name or without one; a variant
is its name, followed by its content in parentheses; an optional value is `None` or stands
inside `Some`. Nesting is limited, and what is passed over counts like what is read.
-/

namespace PoolLint.Serial

open PoolLint.Bytecode

/-- A value with the nesting that it may take up. -/
structure RonNode where
  value : Ron
  /-- How many levels are left. -/
  room : Nat
deriving Repr

namespace RonFormat

/-- A part of a value, which is nested deeper by that much. -/
def nest (node : RonNode) (levels : Nat) (part : Ron) : RonNode :=
  ⟨part, node.room - levels⟩

/-- The fields between the parentheses of a value. -/
def fieldsOf : Ron → Option (List (String × Ron))
  | .record _ fields => some fields
  | .tuple _ [] => some []
  | _ => none

/-- The name before the parentheses of a value. -/
def nameOf : Ron → Option String
  | .record tag _ => tag
  | .tuple tag _ => tag
  | _ => none

/-- The named fields of a value in their declared order; all of them, those passed over among
them, must have room when they are nested deeper by that many levels. -/
def namedRecord (levels : Nat) (names : List String) (node : RonNode) :
    Option (Record RonNode) := do
  let fields ← fieldsOf node.value
  guard (fields.all fun (_, v) => levels + v.depth ≤ node.room)
  return ⟨← orderFields names (fields.map fun (name, v) => (name, nest node levels v)), false⟩

/-- A record with or without its type name. -/
def record (e : Ron.Extensions) (type : String) (names : List String) (node : RonNode) :
    Option (Record RonNode) :=
  let name := nameOf node.value
  if name = some type || (name = none && !e.explicitStructNames) then namedRecord 2 names node
  else none

/-- The single value between the parentheses of a variant. -/
def content (node : RonNode) : Option RonNode :=
  match node.value with
  | .tuple (some _) [v] => some (nest node 2 v)
  | _ => none

/-- An integer that names no type, or the given one. -/
def integer (type : String) : Ron → Option Int
  | .integer n none => some n
  | .integer n (some named) => if named = type then some n else none
  | _ => none

/-- An optional value. -/
def optional (e : Ron.Extensions) (node : RonNode) : Option (Option RonNode) :=
  match node.value with
  | .absent => some none
  | .present v => some (some (nest node 1 v))
  | v => if e.implicitSome then some (some (nest node 1 v)) else none

end RonFormat

/-- The object notation with the given extensions. A record and a list are nested two levels
deeper than what they are part of, and so is the content of a variant; a variant that is itself
a record adds one level to those of the record. -/
def ronFormat (e : Ron.Extensions) : Format RonNode where
  text node := match node.value with
    | .text s => some s
    | _ => none
  bool node := match node.value with
    | .truth b => some b
    | _ => none
  nat bits node :=
    (RonFormat.integer ("u" ++ toString bits) node.value).bind (unsigned? bits)
  int bits node :=
    (RonFormat.integer ("i" ++ toString bits) node.value).bind (signed? bits)
  list node := match node.value with
    | .list items => some (items.map (RonFormat.nest node 2))
    | _ => none
  optional := RonFormat.optional e
  record := RonFormat.record e
  tag node := match node.value with
    | .word name => some name
    | v => RonFormat.nameOf v
  isBare node := match node.value with
    | .word _ => true
    | _ => false
  content := RonFormat.content
  contentRecord type names node :=
    if e.unwrapVariantNewtypes then RonFormat.namedRecord 4 names node
    else (RonFormat.content node).bind (RonFormat.record e type names)
  variantRecord := RonFormat.namedRecord 3

/-- Reads a class file from text in the object notation. -/
def readRonClassFile (text : String) : Option ClassFile := do
  let (e, v) ← Ron.parse? text
  decodeClassFile (ronFormat e) ⟨v, Ron.maxDepth⟩

end PoolLint.Serial

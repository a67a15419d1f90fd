import PoolLint.Numeric.Width

/-!
# Data formats

Class files and settings are read from several formats, which agree on what a record, a list
or a variant is and differ in how each is written. A format is given by the ways to take its
values apart, and the decoders of the domain types are written once, against any format.

A record is either a set of named fields, or the values of its fields in their declared
order, of which the last ones may be left out.
-/

namespace PoolLint.Serial

/-- The fields of a record in their declared order, with nothing for those left out. -/
structure Record (F : Type) where
  fields : List (Option F)
  /-- The fields were given by position. -/
  positional : Bool
deriving Repr

/-- How the values of a format are taken apart. Each function answers only if the value has
the form it asks for. -/
structure Format (F : Type) where
  text : F → Option String
  bool : F → Option Bool
  /-- A natural number of at most that many bits. -/
  nat : Nat → F → Option Nat
  /-- An integer of at most that many bits, the sign included. -/
  int : Nat → F → Option Int
  list : F → Option (List F)
  /-- A value that may be absent. -/
  optional : F → Option (Option F)
  /-- A record of the given type name and field names. -/
  record : String → List String → F → Option (Record F)
  /-- The name of a variant. -/
  tag : F → Option String
  /-- A variant without content. -/
  isBare : F → Bool
  /-- The content of a variant with one value. -/
  content : F → Option F
  /-- The content of a variant with one value, which is a record of the given type name and
  field names. -/
  contentRecord : String → List String → F → Option (Record F)
  /-- The fields of a variant that is itself a record. -/
  variantRecord : List String → F → Option (Record F)

namespace Record

variable {F α : Type}

/-- The value given for a field. -/
def given? (r : Record F) (i : Nat) : Option F :=
  (r.fields[i]?).join

/-- A field that must be given. -/
def required (r : Record F) (i : Nat) (decode : F → Option α) : Option α :=
  (r.given? i).bind decode

/-- A field with a default. -/
def withDefault (r : Record F) (i : Nat) (default : α) (decode : F → Option α) : Option α :=
  match r.given? i with
  | some v => decode v
  | none => some default

end Record

namespace Format

variable {F α : Type} (fmt : Format F)

/-- A value that may be absent. -/
def nullable (decode : F → Option α) (v : F) : Option (Option α) := do
  match ← fmt.optional v with
  | none => return none
  | some w => return some (← decode w)

/-- A list of values. -/
def listOf (decode : F → Option α) (v : F) : Option (List α) := do
  (← fmt.list v).mapM decode

/-- A field that may be absent and may be left out as well. -/
def optionalField (r : Record F) (i : Nat) (decode : F → Option α) : Option (Option α) :=
  r.withDefault i none (fmt.nullable decode)

/-- A field that may be absent, and may be left out only where fields are named. -/
def nullableField (r : Record F) (i : Nat) (decode : F → Option α) : Option (Option α) :=
  match r.given? i with
  | some v => fmt.nullable decode v
  | none => if r.positional then none else some none

/-- An index or a size. -/
def index (v : F) : Option Nat :=
  fmt.nat 64 v

/-- A variant without content, by its name. -/
def bareVariant (ofName : String → Option α) (v : F) : Option α := do
  let a ← ofName (← fmt.tag v)
  guard (fmt.isBare v)
  return a

end Format

/-! ## Fields by name -/

/-- Puts named fields into their declared order. Names that are not declared are passed over;
a declared name that occurs twice is refused. -/
def orderFields {F : Type} (names : List String) (fields : List (String × F)) :
    Option (List (Option F)) :=
  names.mapM fun name =>
    match fields.filter (·.1 == name) with
    | [] => some none
    | [(_, v)] => some (some v)
    | _ => none

end PoolLint.Serial

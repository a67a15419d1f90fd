/-!
# Object notation with named structures

A text format of records `Name(field: value)`, tuples `Name(value, value)`, lists, maps and
scalars. What is written is kept as it stands: whether a group of parentheses is a record, a
variant or an optional value depends on what is asked for.
-/

namespace PoolLint

/-- A value. Parentheses may follow a name, and hold either values or named fields. -/
inductive Ron where
  /-- An optional value that is not there. -/
  | absent
  /-- An optional value that is there. -/
  | present (value : Ron)
  | truth (value : Bool)
  /-- A pair of parentheses with nothing in between. -/
  | unit
  /-- A name alone: a variant without content. -/
  | word (name : String)
  /-- An integer, with the type it names, if any. -/
  | integer (value : Int) (type : Option String)
  /-- A number with a fraction or an exponent, a range of numbers, a character, or a string of
  bytes. -/
  | other
  | text (s : String)
  | list (items : List Ron)
  | map (entries : List (Ron × Ron))
  | tuple (tag : Option String) (items : List Ron)
  | record (tag : Option String) (fields : List (String × Ron))
deriving Repr

namespace Ron

/-! ## Nesting -/

/-- How much nesting a text may have. -/
def maxDepth : Nat := 128

mutual

/-- How much nesting a value takes up: a group with elements counts for two, one without for
one, and so does an optional value that is there. -/
def depth : Ron → Nat
  | .present v => v.depth + 1
  | .list items => itemsDepth 0 items + 1
  | .map entries => entriesDepth 0 entries + 1
  | .tuple _ items => itemsDepth 0 items + 1
  | .record _ fields => fieldsDepth 0 fields + 1
  | _ => 0

/-- The nesting of elements, or the one given if that is more. -/
def itemsDepth (least : Nat) : List Ron → Nat
  | [] => least
  | v :: rest => itemsDepth (max least (v.depth + 1)) rest

/-- The nesting of elements with keys, or the one given if that is more. -/
def entriesDepth (least : Nat) : List (Ron × Ron) → Nat
  | [] => least
  | (k, v) :: rest => entriesDepth (max least (max k.depth v.depth + 1)) rest

/-- The nesting of named elements, or the one given if that is more. -/
def fieldsDepth (least : Nat) : List (String × Ron) → Nat
  | [] => least
  | (_, v) :: rest => fieldsDepth (max least (v.depth + 1)) rest

end

/-! ## Extensions -/

/-- Deviations from the usual rules that a text asks for in its first lines. -/
structure Extensions where
  /-- Optional values need no `Some`. -/
  implicitSome : Bool
  /-- Structures without fields of their own need no parentheses. -/
  unwrapNewtypes : Bool
  /-- The record that is the content of a variant needs no parentheses of its own. -/
  unwrapVariantNewtypes : Bool
  /-- Records must be named. -/
  explicitStructNames : Bool
deriving DecidableEq, Repr

/-- The usual rules. -/
def Extensions.none : Extensions :=
  ⟨false, false, false, false⟩

/-- Adds the deviation of a name. -/
def Extensions.enable (e : Extensions) : String → Option Extensions
  | "implicit_some" => some { e with implicitSome := true }
  | "unwrap_newtypes" => some { e with unwrapNewtypes := true }
  | "unwrap_variant_newtypes" => some { e with unwrapVariantNewtypes := true }
  | "explicit_struct_names" => some { e with explicitStructNames := true }
  | _ => Option.none

end Ron

end PoolLint

import PoolLint.Report.Location

/-!
# Paths as text

A path is kept as it was spelled, because it is shown that way. Two spellings are the same
path if they have the same components: repeated and trailing slashes make no difference, and
a dot counts only at the very start. Paths are ordered by components and not by characters.
-/

namespace PoolLint

/-- A component of a path. -/
inductive Component where
  | root
  | current
  | parent
  | name (text : String)
deriving DecidableEq, Repr

namespace Component

/-- The rank of the kinds of components. -/
def rank : Component → Nat
  | root => 0
  | current => 1
  | parent => 2
  | name _ => 3

/-- Compares two components, names by their text. -/
def compare : Component → Component → Ordering
  | name a, name b => compareText a b
  | a, b => compareNat a.rank b.rank

end Component

namespace Path

/-- What stands between the slashes. -/
def segments (path : String) : List String :=
  (path.toList.splitOn '/').map String.ofList

/-- The component of a segment that is not the first. -/
def innerComponent? : String → Option Component
  | "" | "." => none
  | ".." => some .parent
  | text => some (.name text)

/-- The component of the first segment, which is empty in an absolute path. -/
def firstComponent? (path : String) : String → Option Component
  | "" => if path.isEmpty then none else some .root
  | "." => some .current
  | text => innerComponent? text

/-- The components of a path. -/
def components (path : String) : List Component :=
  match segments path with
  | [] => []
  | first :: rest => (firstComponent? path first).toList ++ rest.filterMap innerComponent?

/-- Compares two lists of components, a list before its extensions. -/
def compareComponents : List Component → List Component → Ordering
  | [], [] => .eq
  | [], _ :: _ => .lt
  | _ :: _, [] => .gt
  | a :: as, b :: bs => (a.compare b).then (compareComponents as bs)

/-- Compares two paths. -/
def compare (a b : String) : Ordering :=
  compareComponents (components a) (components b)

/-- Appends a relative path; an absolute one stands for itself. -/
def join (base path : String) : String :=
  if path.startsWith "/" then path
  else if base.isEmpty || base.endsWith "/" then base ++ path
  else base ++ "/" ++ path

/-- Drops segments at the end that are no components; the first one always stays. -/
def trimSegments : List String → List String
  | [] => []
  | first :: rest =>
    first :: (rest.reverse.dropWhile fun s => (innerComponent? s).isNone).reverse

/-- The text of some segments; a single empty one is the root. -/
def ofSegments : List String → String
  | [""] => "/"
  | segments => "/".intercalate segments

/-- The path without its last component, spelled as before; `none` for the root and for the
empty path. -/
def parent? (path : String) : Option String :=
  match trimSegments (segments path) with
  | [] | [""] => none
  | trimmed => some (ofSegments (trimSegments trimmed.dropLast))

/-- The path and its ancestors, the nearest first, at most `fuel` of them. -/
def ancestorsFrom (fuel : Nat) (path : String) : List String :=
  match fuel, parent? path with
  | fuel + 1, some parent => path :: ancestorsFrom fuel parent
  | _, _ => [path]

/-- The path and its ancestors, the nearest first. -/
def ancestors (path : String) : List String :=
  ancestorsFrom (segments path).length path

/-- The last component, if it is a name. -/
def fileName? (path : String) : Option String :=
  match (components path).getLast? with
  | some (.name text) => some text
  | _ => none

/-- What follows the last dot of the file name; a dot at its start does not count. -/
def extension? (path : String) : Option String := do
  let reversed := (← fileName? path).toList.reverse
  let (ext, stem) := reversed.span (· != '.')
  if stem.length ≤ 1 then none else return String.ofList ext.reverse

end Path

end PoolLint

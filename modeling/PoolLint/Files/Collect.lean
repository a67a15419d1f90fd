import PoolLint.Files.Tree
import PoolLint.Serial.RonFormat
import PoolLint.Serial.JsonFormat

/-!
# Collecting and loading class files

Class files are stored as text in one of two formats, which the extension of the file name
tells. They are given one by one or by the directories they lie under; in a directory, files
with another extension are passed over.
-/

namespace PoolLint

open PoolLint.Bytecode

/-- Why class files cannot be collected or loaded. -/
inductive LoadError where
  | unreadable (path : String)
  | invalidJson (path : String)
  | invalidRon (path : String)
  | unsupported (path : String)
  | notFound (path : String)
  /-- A directory cannot be walked: a link in it leads nowhere, or back to where it came
  from. -/
  | walk (path : String)
deriving DecidableEq, Repr

/-- The wording of a load error. -/
def LoadError.message : LoadError → String
  | unreadable path => s!"Failed to read {path}"
  | invalidJson path => s!"Invalid JSON unit {path}"
  | invalidRon path => s!"Invalid RON unit {path}"
  | unsupported path => s!"Unsupported unit file {path} (expected .json or .ron)"
  | notFound path => s!"Path does not exist: {path}"
  | walk path => s!"Failed to walk {path}"

/-- The formats of class files. -/
inductive UnitFormat where
  | json
  | ron
deriving DecidableEq, Repr

/-- The format of a name. -/
def UnitFormat.ofName? : String → Option UnitFormat
  | "json" => some .json
  | "ron" => some .ron
  | _ => none

/-- The format of the class file at a path. -/
def unitFormat? (path : String) : Option UnitFormat :=
  (Path.extension? path).bind UnitFormat.ofName?

/-- The path names a class file. -/
def isUnitFile (path : String) : Bool :=
  (unitFormat? path).isSome

/-- Reads a class file from text; the path only serves for messages. -/
def parseUnit (text : String) (format : UnitFormat) (path : String) :
    Except LoadError ClassFile :=
  match format with
  | .json => (Serial.readJsonClassFile text).elim (.error (.invalidJson path)) .ok
  | .ron => (Serial.readRonClassFile text).elim (.error (.invalidRon path)) .ok

/-- Reads a class file from text in the format of the given name. -/
def parseUnitNamed (text format path : String) : Except LoadError ClassFile :=
  match UnitFormat.ofName? format with
  | some format => parseUnit text format path
  | none => .error (.unsupported path)

namespace FileSystem

/-- Loads the class file at a path. -/
def loadUnit (fs : FileSystem) (path : String) : Except LoadError ClassFile :=
  match unitFormat? path with
  | none => .error (.unsupported path)
  | some format =>
    match fs.readText? path with
    | none => .error (.unreadable path)
    | some text => parseUnit text format path

/-! ## Walking directories -/

mutual

/-- The class files below the directory at a place, spelled as continuations of `path`.
Links are followed, but not to one of the directories in `above`, which lead here; at most
`fuel` directories are entered one inside the other. -/
def walkDir (fs : FileSystem) (fuel : Nat) (above : List (List String)) (place : List String)
    (path : String) : Option (List String) :=
  match fuel, fs.root.at? place with
  | fuel + 1, some (.dir entries) => fs.walkEntries fuel (place :: above) place path entries
  | _, _ => none

/-- The class files among and below some entries of a directory. -/
def walkEntries (fs : FileSystem) (fuel : Nat) (above : List (List String))
    (place : List String) (path : String) : List (String × FileNode) → Option (List String)
  | [] => some []
  | (name, node) :: rest => do
    let child := Path.join path name
    let found ← match node with
      | .file _ => some (if isUnitFile child then [child] else [])
      | .dir _ => fs.walkDir fuel above (place ++ [name]) child
      | .link _ =>
        match fs.follow maxLinks place [name] with
        | none => none
        | some target =>
          if !fs.isDirAt target then some (if isUnitFile child then [child] else [])
          else if target ∈ above then none
          else fs.walkDir fuel above target child
    return found ++ (← fs.walkEntries fuel above place path rest)

end

/-- The class files that an argument stands for. -/
def unitsOf (fs : FileSystem) (path : String) : Except LoadError (List String) :=
  match fs.resolve? path with
  | none => .error (.notFound path)
  | some place =>
    match fs.root.at? place with
    | none => .error (.notFound path)
    | some (.dir _) =>
      let depth := (fs.root.size + 1) * (fs.root.size + 1)
      (fs.walkDir depth [] place path).elim (.error (.walk path)) .ok
    | some _ => if isUnitFile path then .ok [path] else .error (.unsupported path)

/-- Drops every path that is the same as the one before it. -/
def dropRepeats : List String → List String
  | a :: b :: rest =>
    if Path.components a = Path.components b then dropRepeats (a :: rest)
    else a :: dropRepeats (b :: rest)
  | paths => paths

/-- The class files that some arguments stand for, in order and each path once. -/
def collectUnits (fs : FileSystem) (paths : List String) : Except LoadError (List String) := do
  let found := (← paths.mapM fs.unitsOf).flatten
  return dropRepeats (found.mergeSort fun a b => (Path.compare a b).isLE)

end FileSystem

end PoolLint

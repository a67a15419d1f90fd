import PoolLint.Command.Run

/-!
# The program

The part that deals with the outside world: it copies the files that a command line may look
at into a file tree, runs the command on the tree, and prints and writes what comes out.
-/

namespace PoolLint.Program

open PoolLint PoolLint.Command

/-- The files copied so far, and the directories whose entries are among them. -/
structure Copy where
  root : FileNode
  listed : List (List String)

/-- The absolute path of a place. -/
def absolute (place : List String) : String :=
  "/" ++ "/".intercalate place

/-- The names on the way to a place given by its absolute path. -/
def placeOf (path : String) : List String :=
  (Path.segments path).filter (!·.isEmpty)

/-- The entry of a name in the directory at a place. -/
def entryAt (place : List String) (name : String) : IO.FS.DirEntry :=
  ⟨absolute place, name⟩

/-- What kind of file an entry is, if it exists. -/
def typeOf? (entry : IO.FS.DirEntry) : IO (Option IO.FS.FileType) := do
  try return some (← entry.path.symlinkMetadata).type
  catch _ => return none

/-- The text of a file, if it can be read and holds text. -/
def textOf? (entry : IO.FS.DirEntry) : IO (Option String) := do
  try return String.fromUTF8? (← IO.FS.readBinFile entry.path)
  catch _ => return none

/-- Adds a node to a copy, unless there is one. -/
def Copy.add (copy : Copy) (place : List String) (node : FileNode) : Copy :=
  if (copy.root.at? place).isSome then copy
  else { copy with root := .put node place copy.root }

/-- Copies what the segments of a path lead to from the directory at a place, with all that
lies below it and all links on the way. -/
partial def copyAlong (copy : Copy) (place segments : List String) : IO Copy := do
  match segments with
  | [] =>
    if place ∈ copy.listed then return copy
    let mut copy := { copy with listed := place :: copy.listed }
    let here := entryAt place.dropLast (place.getLast?.getD ".")
    let entries ← try here.path.readDir catch _ => pure #[]
    for entry in entries do
      copy ← copyAlong copy place [entry.fileName]
    return copy
  | segment :: rest =>
    if segment = "" || segment = "." then copyAlong copy place rest
    else if segment = ".." then copyAlong copy place.dropLast rest
    else
      let entry := entryAt place segment
      let child := place ++ [segment]
      match ← typeOf? entry with
      | none => return copy
      | some .symlink =>
        let target ← try (·.toString) <$> IO.FS.realPath entry.path catch _ => pure ""
        let copy := copy.add child (.link target)
        if target.isEmpty || placeOf target = child then return copy
        else copyAlong copy [] (placeOf target ++ rest)
      | some .dir => copyAlong (copy.add child (.dir [])) child rest
      | some _ => return copy.add child (.file (← textOf? entry))

/-- The files that some paths lead to. -/
def copyFiles (paths : List String) : IO FileSystem := do
  let current := placeOf (← IO.currentDir).toString
  let mut copy : Copy := ⟨.put (.dir []) current (.dir []), []⟩
  for path in paths do
    let start := if path.startsWith "/" then [] else current
    copy ← copyAlong copy start (Path.segments path)
  return ⟨copy.root, current⟩

/-- Where the user keeps settings. -/
def readUserDirs : IO UserDirs := do
  return ⟨← IO.getEnv "XDG_CONFIG_HOME", ← IO.getEnv "HOME", ← IO.getEnv "APPDATA"⟩

/-- Prints what a failed run has to say. -/
def reportError (error : RunError) : IO Unit := do
  IO.eprintln s!"Error: {error.message}"
  if let some cause := error.cause? then
    IO.eprintln s!"\nCaused by:\n    {cause}"

end PoolLint.Program

open PoolLint PoolLint.Command PoolLint.Program in
/-- Runs the command line. -/
def main (words : List String) : IO UInt32 := do
  let userDirs ← readUserDirs
  let paths := match parseArguments words with
    | .ok invocation => invocation.request.lookups userDirs
    | .error _ => []
  let files ← copyFiles paths
  let terminal ← (← IO.getStdout).isTty
  let outcome := run ⟨files, userDirs, terminal⟩ words
  for warning in outcome.warnings do
    IO.eprintln s!" WARN {warning}"
  IO.print outcome.output
  if let some path := outcome.written then
    IO.FS.writeFile path ((outcome.files.readText? path).getD "")
  outcome.error.forM reportError
  return outcome.exitCode.toUInt32

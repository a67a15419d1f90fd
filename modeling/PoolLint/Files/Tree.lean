import PoolLint.Files.Path

/-!
# File trees

A file tree is a value: files with their text, directories, and symbolic links. Paths are
resolved against a working directory and lead through links. A place in the tree is the list
of names that leads to it from the root, through no link.
-/

namespace PoolLint

/-- A file, a directory or a link; the content of a file may be other than text. -/
inductive FileNode where
  | file (text : Option String)
  | dir (entries : List (String × FileNode))
  | link (target : String)
deriving Repr

namespace FileNode

mutual

/-- The number of files, directories and links in a tree. -/
def size : FileNode → Nat
  | file _ => 1
  | link _ => 1
  | dir entries => 1 + sizes entries

/-- The number of files, directories and links below a directory. -/
def sizes : List (String × FileNode) → Nat
  | [] => 0
  | (_, node) :: rest => size node + sizes rest

end

/-- The entry of a directory. -/
def entry? (name : String) : FileNode → Option FileNode
  | dir entries => entries.lookup name
  | _ => none

/-- The node at a place. -/
def at? : List String → FileNode → Option FileNode
  | [], node => some node
  | name :: place, node => (node.entry? name).bind (at? place)

/-- Replaces or adds an entry of a directory. -/
def setEntry (name : String) (child : FileNode) : List (String × FileNode) →
    List (String × FileNode)
  | [] => [(name, child)]
  | (n, node) :: rest =>
    if n = name then (name, child) :: rest else (n, node) :: setEntry name child rest

/-- Puts a node at a place; directories on the way are created as needed, and what is no
directory stays as it is. -/
def put (child : FileNode) : List String → FileNode → FileNode
  | [], _ => child
  | name :: place, dir entries =>
    dir (setEntry name (put child place ((entries.lookup name).getD (dir []))) entries)
  | _ :: _, node => node

end FileNode

/-- A file tree with a working directory, given by its place. -/
structure FileSystem where
  root : FileNode
  workingDir : List String
deriving Repr

namespace FileSystem

/-- The most links that are followed on the way to one file. -/
def maxLinks : Nat := 40

/-- The node at a place is a directory. -/
def isDirAt (fs : FileSystem) (place : List String) : Bool :=
  match fs.root.at? place with
  | some (.dir _) => true
  | _ => false

/-- Follows segments of a path from a place, through at most `links` links. Every segment
needs a directory to start from, an empty one and a dot included. -/
def follow (fs : FileSystem) (links : Nat) (place : List String) (segments : List String) :
    Option (List String) :=
  match segments with
  | [] => some place
  | segment :: rest =>
    if !fs.isDirAt place then none
    else if segment = "" || segment = "." then fs.follow links place rest
    else if segment = ".." then fs.follow links place.dropLast rest
    else
      match fs.root.at? (place ++ [segment]) with
      | none => none
      | some (.link target) =>
        match links with
        | 0 => none
        | links + 1 =>
          fs.follow links (if target.startsWith "/" then [] else place)
            (Path.segments target ++ rest)
      | some _ => fs.follow links (place ++ [segment]) rest
termination_by (links, segments.length)

/-- The place a path leads to. -/
def resolve? (fs : FileSystem) (path : String) : Option (List String) :=
  if path.isEmpty then none
  else
    fs.follow maxLinks (if path.startsWith "/" then [] else fs.workingDir) (Path.segments path)

/-- The node a path leads to. -/
def node? (fs : FileSystem) (path : String) : Option FileNode :=
  (fs.resolve? path).bind fun place => fs.root.at? place

/-- The path leads somewhere. -/
def pathExists (fs : FileSystem) (path : String) : Bool :=
  (fs.node? path).isSome

/-- The path leads to a file. -/
def isFile (fs : FileSystem) (path : String) : Bool :=
  match fs.node? path with
  | some (.file _) => true
  | _ => false

/-- The path leads to a directory. -/
def isDir (fs : FileSystem) (path : String) : Bool :=
  match fs.node? path with
  | some (.dir _) => true
  | _ => false

/-- The text of the file a path leads to. -/
def readText? (fs : FileSystem) (path : String) : Option String :=
  match fs.node? path with
  | some (.file text) => text
  | _ => none

/-- Writes a file of the given name into the directory at a place; a link of that name is
followed, also if it leads nowhere yet. -/
def writeIn (fs : FileSystem) (links : Nat) (place : List String) (name text : String) :
    Option FileSystem :=
  if !fs.isDirAt place || (Path.innerComponent? name).isNone || name = ".." then none
  else
    match fs.root.at? (place ++ [name]) with
    | some (.dir _) => none
    | some (.link target) =>
      match links, (Path.segments target).getLast? with
      | links + 1, some last => do
        let start := if target.startsWith "/" then [] else place
        let parent ← fs.follow links start (Path.segments target).dropLast
        fs.writeIn links parent last text
      | _, _ => none
    | _ => some { fs with root := .put (.file (some text)) (place ++ [name]) fs.root }

/-- Writes a file; its directory must exist. -/
def write? (fs : FileSystem) (path text : String) : Option FileSystem := do
  let segments := Path.segments path
  let start := if path.startsWith "/" then [] else fs.workingDir
  let parent ← fs.follow maxLinks start segments.dropLast
  fs.writeIn maxLinks parent (← segments.getLast?) text

end FileSystem

end PoolLint

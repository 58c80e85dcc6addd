/-
# Disks

What a compilation needs of the place where its files are: it lists, reads
and writes files through these operations only. A file tree is such a place
that is held in memory.

Key definitions: `Disk`, `FileTree`, `FileTree.disk`.
-/
import Javascribe.Path
import Javascribe.Table

namespace Javascribe

/-- The operations on files. -/
structure Disk (m : Type → Type) where
  /-- Whether there is a directory. -/
  isDirectory : Path → m Bool
  /-- The files below a directory at any depth; nothing when it cannot be read. -/
  filesBelow : Path → m (Option (List Path))
  /-- The text of a file, or why it cannot be read. -/
  read : Path → m (Except String String)
  /-- Makes a directory and those above it, and says whether it is there then. -/
  makeDirectory : Path → m Bool
  /-- Writes a text to a file, and says whether that was possible. -/
  write : Path → String → m Bool

/-- Where something is: the names on the way to it. -/
abbrev Location := List String

/-- Files and directories in memory. The directories on the way to a file or
a directory are there as well. -/
structure FileTree where
  files : Table Location ByteArray := .empty
  directories : List Location := []

namespace FileTree

variable (tree : FileTree)

/-- Whether there is a file. -/
def isFile (location : Location) : Bool := tree.files.contains location

/-- Whether there is a directory. -/
def isDirectory (location : Location) : Bool :=
  location.isEmpty || tree.directories.any location.isPrefixOf
    || tree.files.keys.any fun file => location.isPrefixOf file && location != file

/-- Where a component leads. -/
def follow (location : Location) : Path.Component → Option Location
  | .root => some []
  | .current => some location
  | .parent => if tree.isDirectory location then some location.dropLast else none
  | .name name => some (location ++ [name])

/-- Where a path leads. -/
def locate (path : Path) : Option Location := path.components.foldlM tree.follow []

/-- The tree with a file. -/
def withFile (location : Location) (content : ByteArray) : FileTree :=
  { tree with files := tree.files.insert location content }

/-- The files of a tree, at paths that need no tree to be followed. -/
def ofFiles (files : List (Path × ByteArray)) : FileTree :=
  files.foldl (fun tree (path, content) =>
    tree.withFile (path.components.map (·.text)) content) {}

/-- The files below a location, named by paths below a directory. -/
def filesBelow (directory : Path) (location : Location) : List Path :=
  tree.files.keys.filterMap fun file =>
    ((Path.after? location file).filter (!·.isEmpty)).map fun names =>
      names.foldl (fun path name => path.join ⟨name⟩) directory

/-- The text of a file, or why it cannot be read. -/
def readText (path : Path) : Except String String :=
  match (tree.locate path).bind tree.files.find? with
  | none => .error "No such file or directory (os error 2)"
  | some content =>
    match String.fromUTF8? content with
    | some text => .ok text
    | none => .error "stream did not contain valid UTF-8"

/-- The tree after the directories of components are made, and where they
lead; nothing when a file is in the way. -/
def makeAlong (tree : FileTree) (location : Location) :
    List Path.Component → Option FileTree
  | [] => some tree
  | .root :: components => makeAlong tree [] components
  | .current :: components => makeAlong tree location components
  | .parent :: components => makeAlong tree location.dropLast components
  | .name name :: components =>
    let location := location ++ [name]
    if tree.isFile location then none
    else makeAlong { tree with directories := tree.directories ++ [location] } location components

/-- The tree with a file written; nothing when a directory is in the way. -/
def writeText (path : Path) (text : String) : Option FileTree := do
  let location ← tree.locate path
  if tree.isDirectory location || !tree.isDirectory location.dropLast then none
  return tree.withFile location text.toUTF8

/-- Puts a changed tree in place, if there is one. -/
def replace (changed : Option FileTree) : StateM FileTree Bool := do
  match changed with
  | some tree =>
    set tree
    return true
  | none => return false

/-- A file tree as a disk. -/
def disk : Disk (StateM FileTree) where
  isDirectory path := return ((← get).locate path).any (← get).isDirectory
  filesBelow path := do
    let tree ← get
    return (tree.locate path).map (tree.filesBelow path)
  read path := return (← get).readText path
  makeDirectory path := do replace ((← get).makeAlong [] path.components)
  write path text := do replace ((← get).writeText path text)

end FileTree
end Javascribe

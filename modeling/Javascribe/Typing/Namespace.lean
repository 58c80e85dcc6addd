/-
# Identifiers

A type `Inner` declared in `Outer` in the file `a/b/C.java` has the
identifier `a/b/C.java:Outer.Inner`. A reference to a name could mean, the
nearest first: the name in each enclosing type and in the file, an import of
the name, the name in each package imported as a whole, the name in a file
next to this one, and the bare name of something the host knows.

Key definitions: `FileNamespace`, `FileNamespace.identifier`,
`FileNamespace.candidates`.
-/
import Javascribe.Table
import Javascribe.Tree.Basic

namespace Javascribe

/-- How names are understood in one file. -/
structure FileNamespace where
  file : String
  directory : String
  imports : Table String String
  wildcards : List String

/-- The identifier of the type `name` at the top of its own file in a package. -/
def sourceIdentifier (package name : String) : String :=
  if package.isEmpty then s!"{name}.java:{name}" else s!"{package}/{name}.java:{name}"

/-- What stands before the last slash of a path; nothing when there is none. -/
def parentDirectory (path : String) : String :=
  String.ofList (((path.toList.reverse.dropWhile (· != '/')).drop 1).reverse)

namespace FileNamespace

/-- A file without imports. -/
def new (file : String) : FileNamespace := ⟨file, parentDirectory file, .empty, []⟩

/-- The package in which an import's name is looked for. A static import
names a member of the class before it. -/
def importPackage (item : Tree.Import) : String :=
  "/".intercalate (item.names.take (item.names.length - if item.isStatic then 2 else 1))

/-- The file with one more import. -/
def addImport (space : FileNamespace) (item : Tree.Import) : FileNamespace :=
  if item.isWildcard then
    { space with wildcards := space.wildcards ++ ["/".intercalate item.names] }
  else
    let imports := match item.default with
      | some name => space.imports.insert name (sourceIdentifier (importPackage item) name)
      | none => space.imports
    let package := "/".intercalate item.names
    { space with
      imports := item.group.foldl
        (fun imports name => imports.insert name (sourceIdentifier package name)) imports }

/-- The file with the imports of its tree. -/
def ofTree (file : String) (tree : SourceTree) : FileNamespace :=
  tree.imports.foldl addImport (new file)

variable (space : FileNamespace)

/-- The identifier of what is declared as `name` in the types `enclosing`. -/
def identifier (enclosing : List String) (name : String) : String :=
  space.file ++ ":" ++ String.join (enclosing.map (· ++ ".")) ++ name

/-- The identifiers of `name` in each of the enclosing types, innermost first,
and in the file. -/
def localCandidates (enclosing : List String) (name : String) : List String :=
  (List.range (enclosing.length + 1)).reverse.map fun depth =>
    space.identifier (enclosing.take depth) name

/-- The identifiers that a chain of names could mean inside `enclosing`. -/
def candidates (enclosing : List String) : List String → List String
  | [] => []
  | head :: rest =>
    let imported := match space.imports.find? head with
      | some identifier => [identifier ++ String.join (rest.map ("." ++ ·))]
      | none => []
    let global := match rest.getLast? with
      | none =>
        space.wildcards.map (sourceIdentifier · head)
          ++ [sourceIdentifier space.directory head, head]
      | some name => [sourceIdentifier ("/".intercalate (head :: rest.dropLast)) name]
    space.localCandidates enclosing (".".intercalate (head :: rest)) ++ imported ++ global

end FileNamespace
end Javascribe

/-
# Modules

A file becomes a module: its imports, its classes, and the export of the
first public class, or of the first class when none is public. Imports of
the library and of whole packages have nothing to load.

Key definitions: `Emit.importDecl`, `Emit.file`, `SourceTree.toJavaScript`.
-/
import Javascribe.Output.Emit

namespace Javascribe
namespace Emit

open Javascribe.Tree
open Document (text line)

/-- Whether an import is of the library. -/
def isLibraryImport (item : Import) : Bool :=
  item.names.head? == some "java" || item.names.head? == some "javax"

/-- The line that loads a module under a name. -/
def require (binding : String) (path : List String) : Document :=
  text ("const " ++ binding ++ " = require('./" ++ "/".intercalate path ++ "');") ++ line

/-- The last place of a name in a path. -/
def lastIndex? (name : String) (path : List String) : Option Nat :=
  (path.reverse.findIdx? (· == name)).map fun index => path.length - 1 - index

/-- An import of one class. A static import takes the member after the class
out of the class's module. -/
def classImport (item : Import) (name : String) : Document :=
  match lastIndex? name item.names with
  | none => []
  | some index =>
    let path := item.names.take (index + 1)
    match item.names[index + 1]? with
    | some member =>
      if item.isStatic && !item.isWildcard then require ("\x7b " ++ member ++ " \x7d") path
      else require name path
    | none => require name path

/-- An import. -/
def importDecl (item : Import) : Document :=
  if isLibraryImport item then []
  else if !item.group.isEmpty then
    item.group.flatMap fun name => require name (item.names ++ [name])
  else
    match item.default with
    | some name => classImport item name
    | none => []

/-- The class that a file exports. -/
def exported? (tree : SourceTree) : Option ClassDecl :=
  (tree.classes.find? fun c => c.modifiers.access == .everyone).or tree.classes.head?

/-- A file. -/
def file (resolutions : Resolutions) (tree : SourceTree) : Document :=
  tree.imports.flatMap importDecl
    ++ (tree.classes.flatMap fun c => [.unit] ++ classDecl resolutions c)
    ++ match exported? tree with
      | some c => [.unit, .text ("module.exports = " ++ c.name ++ ";")]
      | none => []

end Emit

/-- The JavaScript of a file. -/
def SourceTree.toJavaScript (tree : SourceTree) (resolutions : Resolutions) : String :=
  (Emit.file resolutions tree).render

end Javascribe

/-
# Checking files

A file is checked item by item, against the dictionary of everything that is
declared. The result is what is wrong with the file and what the output has
to know about its names.

Key definitions: `CheckedFile`, `SourceTree.check`.
-/
import Javascribe.Checking.Check

namespace Javascribe

/-- What a check of a file finds. -/
structure CheckedFile where
  diagnostics : List Diagnostic
  resolutions : Resolutions

/-- The errors among the diagnostics. -/
def CheckedFile.errors (checked : CheckedFile) : List Diagnostic :=
  checked.diagnostics.filter (·.isError)

namespace Check

/-- Reports a file without a package. -/
def package (package : Option Tree.Package) : Checker Unit := do
  if package.isNone then
    let code := Code.missingPackage
    let diagnostic := Diagnostic.withoutSpan (← read).file (code.message []) code.number
    modify (·.record diagnostic)

/-- What stands at the top of a file. -/
def item : Tree.TopLevel → Checker Unit
  | .importDecl i => Checker.attempt (Checker.checkImport i)
  | .classDecl c => classDecl c
  | .interfaceDecl i => interfaceDecl i

/-- A file. -/
def file (file : Tree.File) : Checker Unit := do
  package file.package
  file.items.forM item

end Check

/-- Checks a file against a dictionary. -/
def SourceTree.check (file : String) (tree : SourceTree) (dictionary : Dictionary) :
    CheckedFile :=
  match Check.file tree.toFile (.ofTree file tree dictionary) {} with
  | .ok _ context | .error _ context => ⟨context.diagnostics, context.resolutions⟩

end Javascribe

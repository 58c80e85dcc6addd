/-
# Compiling a set of files

A compiler collects files. The declarations of a file go into the dictionary
as soon as it is added. Checking a file waits until it is asked for and
happens once; a file is written as JavaScript once it has been checked and
has no errors.

Key definitions: `Compiler`, `Compiler.add`, `Compiler.addSource`,
`Compiler.addDiagnostic`, `Compiler.checkAll`, `Compiler.compileFile`,
`Compiler.compileAll`.
-/
import Javascribe.Checking.SourceFile
import Javascribe.Construct.SourceFile
import Javascribe.Language
import Javascribe.Output.Module

namespace Javascribe

/-- The diagnostic of a source that cannot be read. -/
def SourceError.diagnostic (file : String) : SourceError → Diagnostic
  | .scan error =>
    { file := file
      start := error.offset
      length := error.character.utf8Size
      line := some error.line
      message := Code.unexpectedCharacter.message [Text.escaped error.character]
      severity := .error
      code := Code.unexpectedCharacter.number }
  | .parse error =>
    { file := file
      start := error.start
      length := error.length
      line := some error.line
      message := error.cause.text
      severity := .error
      code := Code.unexpectedToken.number }

/-- A file of a compilation. It has no tree when it could not be read, and
no resolutions before it is checked. -/
structure CompilerFile where
  tree : Option SourceTree := none
  diagnostics : List Diagnostic := []
  resolutions : Option Resolutions := none
  output : Option String := none

namespace CompilerFile

/-- The errors of a file. -/
def errors (file : CompilerFile) : List Diagnostic := file.diagnostics.filter (·.isError)

/-- Whether a file has errors. -/
def hasErrors (file : CompilerFile) : Bool := file.diagnostics.any (·.isError)

/-- The file after a check, unless it has been checked or there is nothing to check. -/
def check (name : String) (dictionary : Dictionary) (file : CompilerFile) : CompilerFile :=
  match file.resolutions, file.tree with
  | none, some tree =>
    let checked := tree.check name dictionary
    { file with
      diagnostics := file.diagnostics ++ checked.diagnostics
      resolutions := some checked.resolutions }
  | _, _ => file

/-- The file with its output, if it has none yet and there is no error. -/
def emit (file : CompilerFile) : CompilerFile :=
  match file.hasErrors, file.output, file.tree, file.resolutions with
  | false, none, some tree, some resolutions =>
    { file with output := some (tree.toJavaScript resolutions) }
  | _, _, _, _ => file

/-- The file, checked and written as JavaScript. -/
def compile (name : String) (dictionary : Dictionary) (file : CompilerFile) : CompilerFile :=
  (file.check name dictionary).emit

end CompilerFile

/-- The files of a compilation, in the order in which they were added, and
everything they declare. -/
structure Compiler where
  files : Table String CompilerFile := .empty
  dictionary : Dictionary := .native

namespace Compiler

/-- A compiler without files. -/
def new : Compiler := {}

variable (compiler : Compiler)

/-! ### Adding files -/

/-- Adds a file with its tree, in place of any of its name. What an earlier
file of that name declared stays in the dictionary. -/
def add (name : String) (tree : SourceTree) : Compiler where
  files := compiler.files.insert name { tree := some tree }
  dictionary := (collectDeclarations (.ofTree name tree) tree compiler.dictionary).1

/-- Adds a diagnostic to a file, which is added if it is new. -/
def addDiagnostic (name : String) (diagnostic : Diagnostic) : Compiler :=
  let file := (compiler.files.find? name).getD {}
  { compiler with
    files := compiler.files.insert name
      { file with diagnostics := file.diagnostics ++ [diagnostic] } }

/-- Adds a source, and says whether it could be read. A source in no known
language is left out. -/
def addSource (name text : String) : Compiler × Bool :=
  match Language.ofPath? ⟨name⟩ with
  | none => (compiler, false)
  | some .java =>
    match SourceTree.ofText? text with
    | .ok tree => (compiler.add name tree, true)
    | .error error => (compiler.addDiagnostic name (error.diagnostic name), false)

/-! ### Checking and compiling -/

/-- Changes one file. -/
def modifyFile (name : String) (change : CompilerFile → CompilerFile) : Compiler :=
  match compiler.files.find? name with
  | none => compiler
  | some file => { compiler with files := compiler.files.insert name (change file) }

/-- Changes every file. -/
def modifyFiles (change : String → CompilerFile → CompilerFile) : Compiler :=
  { compiler with
    files := ⟨compiler.files.entries.map fun (name, file) => (name, change name file)⟩ }

/-- Checks every file that has not been checked. -/
def checkAll : Compiler :=
  compiler.modifyFiles fun name file => file.check name compiler.dictionary

/-- Checks one file and writes it as JavaScript. -/
def compileFile (name : String) : Compiler :=
  compiler.modifyFile name (·.compile name compiler.dictionary)

/-- Checks every file, and then writes those without errors as JavaScript. -/
def compileAll : Compiler := compiler.checkAll.modifyFiles fun _ file => file.emit

/-! ### Results -/

/-- The names of the files, in order. -/
def fileNames : List String := compiler.files.keys

/-- The tree of a file. -/
def tree? (name : String) : Option SourceTree := (compiler.files.find? name).bind (·.tree)

/-- What has been found about a file. -/
def diagnosticsOf (name : String) : List Diagnostic :=
  ((compiler.files.find? name).map (·.diagnostics)).getD []

/-- The errors of a file. -/
def errorsOf (name : String) : List Diagnostic := (compiler.diagnosticsOf name).filter (·.isError)

/-- The JavaScript of a file. -/
def output? (name : String) : Option String := (compiler.files.find? name).bind (·.output)

/-- The JavaScript of a file, unless it has errors. -/
def compiled? (name : String) : Option String :=
  if (compiler.errorsOf name).isEmpty then compiler.output? name else none

/-- All errors with their files, file by file. -/
def errors : List (String × Diagnostic) :=
  compiler.files.entries.flatMap fun (name, file) => file.errors.map (name, ·)

/-- All diagnostics, file by file. -/
def diagnostics : List Diagnostic := compiler.files.values.flatMap (·.diagnostics)

/-- How many errors there are. -/
def errorCount : Nat := compiler.errors.length

/-- Whether any file has errors. -/
def hasErrors : Bool := compiler.files.values.any (·.hasErrors)

end Compiler
end Javascribe

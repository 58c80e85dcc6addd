/-
# Compiling a project

A project is a directory with sources below an input directory and perhaps a
configuration file. All sources are compiled together. Only when no file has
an error is anything written, each module at its source's place below the
output directory.

Key definitions: `Project.options`, `Project.compile`, `Compilation`.
-/
import Javascribe.Compiler
import Javascribe.Config
import Javascribe.Disk

namespace Javascribe

/-- Why a project cannot be compiled. -/
inductive ProjectError where
  | invalidConfig (path : Path)
  | missingInput (path : Path)
  | unreadableDirectory (path : Path)
  | missingOutput (path : Path)
  | notWritten (path : Path)
  deriving DecidableEq, Repr

/-- The message of an error. -/
def ProjectError.message : ProjectError → String
  | .invalidConfig path => Code.invalidConfigFile.message [path.text, "expected a JSON object"]
  | .missingInput path => s!"input directory {path.text} does not exist"
  | .unreadableDirectory path => s!"failed to read directory {path.text}"
  | .missingOutput path => s!"failed to create output directory {path.text}"
  | .notWritten path => Code.cannotWriteFile.message [path.text, "write failed"]

/-- What a compilation of a project read, found and wrote. -/
structure Compilation where
  diagnostics : List Diagnostic := []
  written : List Path := []
  read : List Path := []
  /-- The sources by the names that diagnostics use. -/
  sources : List (String × String) := []

namespace Compilation

/-- How many errors there are. -/
def errorCount (compilation : Compilation) : Nat :=
  (compilation.diagnostics.filter (·.isError)).length

/-- Whether there are errors. -/
def hasErrors (compilation : Compilation) : Bool := 0 < compilation.errorCount

end Compilation

/-- Whether components come before others or are the same. -/
def Path.componentsLe : List Path.Component → List Path.Component → Bool
  | [], _ => true
  | _ :: _, [] => false
  | a :: as, b :: bs => if a.text == b.text then componentsLe as bs else a.text < b.text

/-- Where the JavaScript of a source goes. -/
def Path.ofOutput (directory : Path) (name : String) : Path :=
  (directory.join ⟨name⟩).withExtension "js"

namespace Project

variable {m : Type → Type} [Monad m] (disk : Disk m)

/-! ### Options -/

/-- The first of the configuration files that can be read and is not blank. -/
def findConfig (directory : Path) : List String → m (Option (Path × String))
  | [] => return none
  | name :: names => do
    let path := directory.join ⟨name⟩
    match ← disk.read path with
    | .ok text =>
      if (Text.trim text).isEmpty then findConfig directory names else return some (path, text)
    | .error _ => findConfig directory names

/-- The directories of a compilation in a working directory. -/
def options (arguments : Arguments) (directory : Path) : ExceptT ProjectError m Options := do
  match ← liftM (findConfig disk directory Config.fileNames) with
  | none => return .choose arguments {} directory
  | some (path, text) =>
    match Config.ofText? text with
    | some config => return .choose arguments config directory
    | none => throw (.invalidConfig path)

/-! ### Reading and writing -/

/-- The sources below a directory, in order. -/
def sources (directory : Path) : ExceptT ProjectError m (List Path) := do
  unless ← disk.isDirectory directory do throw (.missingInput directory)
  match ← disk.filesBelow directory with
  | none => throw (.unreadableDirectory directory)
  | some files =>
    return (files.filter fun file => (Language.ofPath? file).isSome).mergeSort fun a b =>
      Path.componentsLe a.components b.components

/-- Adds a source to a compiler. -/
def addFile (directory : Path) (state : Compiler × Compilation) (path : Path) :
    m (Compiler × Compilation) := do
  let (compiler, compilation) := state
  let name := path.relativeTo directory
  let compilation := { compilation with read := compilation.read ++ [path] }
  match ← disk.read path with
  | .ok text =>
    return ((compiler.addSource name text).1,
      { compilation with sources := compilation.sources ++ [(name, text)] })
  | .error reason =>
    let code := Code.cannotReadFile
    let diagnostic := Diagnostic.withoutSpan name (code.message [path.text, reason]) code.number
    return (compiler.addDiagnostic name diagnostic, compilation)

/-- Writes the JavaScript of a file. -/
def writeFile (path : Path) (text : String) : ExceptT ProjectError m Unit := do
  if let some parent := path.parent? then
    unless ← disk.makeDirectory parent do throw (.missingOutput parent)
  unless ← disk.write path text do throw (.notWritten path)

/-- Writes the JavaScript of files, and gives their paths. -/
def writeFiles (compiler : Compiler) (directory : Path) :
    List String → ExceptT ProjectError m (List Path)
  | [] => return []
  | name :: names => do
    match compiler.output? name with
    | none => writeFiles compiler directory names
    | some text =>
      let path := Path.ofOutput directory name
      writeFile disk path text
      return path :: (← writeFiles compiler directory names)

/-- Compiles the sources of a project. -/
def compile (options : Options) : ExceptT ProjectError m Compilation := do
  let files ← sources disk options.input
  let (compiler, compilation) ← liftM (files.foldlM (addFile disk options.input) (.new, {}))
  let compiler := compiler.compileAll
  let compilation := { compilation with diagnostics := compiler.diagnostics }
  if compiler.hasErrors then return compilation
  return { compilation with
    written := ← writeFiles disk compiler options.output compiler.fileNames }

end Project
end Javascribe

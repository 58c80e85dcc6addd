/-
# Configuration

A project's configuration file may name its input and output directory. What
the command line says comes first, then the configuration, then the
defaults.

Key definitions: `Config`, `Config.ofText?`, `Options`, `Options.choose`.
-/
import Javascribe.Arguments
import Javascribe.Json
import Javascribe.Path

namespace Javascribe

/-- The directories named by a configuration file. -/
structure Config where
  input : Option String := none
  output : Option String := none
  deriving DecidableEq, Repr

namespace Config

/-- The names of configuration files, in the order in which they are looked for. -/
def fileNames : List String := [".polybabelrc", "polybabel.json"]

/-- The directory that a value names; null names none. -/
def directory? : Json → Option (Option String)
  | .null => some none
  | .string (some text) => some (some text)
  | _ => none

/-- The directory under a key, which must not be repeated. -/
def entry? (key : String) (entries : List (Option String × Json)) : Option (Option String) :=
  match entries.filter (·.1 == some key) with
  | [] => some none
  | [(_, value)] => directory? value
  | _ => none

/-- The configuration that a value is: an object, of which other keys are
ignored, or a list of the two directories. -/
def ofJson? : Json → Option Config
  | .object entries => do
    if entries.any (·.1.isNone) then none
    return ⟨← entry? "in" entries, ← entry? "out" entries⟩
  | .array [] => some {}
  | .array [input] => do return ⟨← directory? input, none⟩
  | .array [input, output] => do return ⟨← directory? input, ← directory? output⟩
  | _ => none

/-- The configuration in a text. -/
def ofText? (text : String) : Option Config := (Json.ofText? text).bind ofJson?

end Config

/-- The directories of a compilation. -/
structure Options where
  input : Path
  output : Path
  deriving DecidableEq, Repr

namespace Options

/-- The input directory when none is named. -/
def defaultInput : String := "src"

/-- The output directory when none is named. -/
def defaultOutput : String := "dist"

/-- The directories of a compilation in a working directory. -/
def choose (arguments : Arguments) (config : Config) (directory : Path) : Options where
  input := directory.join ⟨(arguments.input <|> config.input).getD defaultInput⟩
  output := directory.join ⟨(arguments.output <|> config.output).getD defaultOutput⟩

end Options
end Javascribe

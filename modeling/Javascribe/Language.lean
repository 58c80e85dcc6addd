/-
# Source languages

A source file's language is known by its extension.

Key definitions: `Language`, `Language.ofPath?`.
-/
import Javascribe.Path

namespace Javascribe

/-- The languages that can be compiled. -/
inductive Language where
  | java
  deriving DecidableEq, Repr

namespace Language

/-- The name of a language. -/
def name : Language → String
  | .java => "Java"

/-- The extension of a language's files. -/
def extension : Language → String
  | .java => "java"

/-- The language of files with an extension. -/
def ofExtension? : String → Option Language
  | "java" => some .java
  | _ => none

/-- The language of a file. -/
def ofPath? (path : Path) : Option Language := path.extension?.bind ofExtension?

end Language
end Javascribe

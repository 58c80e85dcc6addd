/-
# Command line arguments

The input and the output directory can be given as options, each at most
once and with a value that is not empty. A value is taken over when the next
option or the end is reached, so a word that no option knows is reported
before what is wrong with the values before it.

Key definitions: `Arguments`, `ArgumentError`, `Arguments.parse`.
-/

namespace Javascribe

/-- The directories given on the command line. -/
structure Arguments where
  input : Option String := none
  output : Option String := none
  deriving DecidableEq, Repr

/-- The options that take a directory. -/
inductive DirectoryOption where
  | input
  | output
  deriving DecidableEq, Repr

/-- How an option is written. -/
def DirectoryOption.text : DirectoryOption → String
  | .input => "--in"
  | .output => "--out"

/-- Why arguments do not lead to a compilation. -/
inductive ArgumentError where
  | unknown (word : String)
  | missingValue (option : DirectoryOption)
  | repeated (option : DirectoryOption)
  | unexpectedValue (word : String)
  | helpWanted
  | versionWanted
  deriving DecidableEq, Repr

namespace ArgumentError

/-- The message of an error. -/
def message : ArgumentError → String
  | .unknown word => s!"unexpected argument '{word}'"
  | .missingValue option => s!"a value is required for '{option.text} <DIR>'"
  | .repeated option => s!"the argument '{option.text} <DIR>' cannot be used multiple times"
  | .unexpectedValue word => s!"unexpected value in '{word}'"
  | .helpWanted => "\n".intercalate [
      "Polybabel - compile Java sources to JavaScript",
      "",
      "Usage: pbl [OPTIONS]",
      "",
      "Options:",
      "  -i, --in <DIR>   Directory containing the source files. Defaults to `src`",
      "  -o, --out <DIR>  Directory the compiled files are written to. Defaults to `dist`",
      "  -h, --help       Print help",
      "  -V, --version    Print version"]
  | .versionWanted => "pbl 0.1.0"

end ArgumentError

namespace Arguments

/-- The directory given for an option. -/
def directory? (arguments : Arguments) : DirectoryOption → Option String
  | .input => arguments.input
  | .output => arguments.output

/-- The arguments with a directory for an option. -/
def withDirectory (arguments : Arguments) (value : String) : DirectoryOption → Arguments
  | .input => { arguments with input := some value }
  | .output => { arguments with output := some value }

/-- Gives an option its value. -/
def store (arguments : Arguments) (option : DirectoryOption) (value : String) :
    Except ArgumentError Arguments :=
  if (arguments.directory? option).isSome then .error (.repeated option)
  else if value.isEmpty then .error (.missingValue option)
  else .ok (arguments.withDirectory value option)

/-- What has been read: the arguments taken over, and an option that waits
for its value or for its value to be taken over. -/
structure Reading where
  arguments : Arguments := {}
  pending : Option (DirectoryOption × Option String) := none

namespace Reading

/-- Takes over the value of the pending option. -/
def settle (reading : Reading) : Except ArgumentError Arguments :=
  match reading.pending with
  | none => .ok reading.arguments
  | some (option, none) => .error (.missingValue option)
  | some (option, some value) => reading.arguments.store option value

/-- Reads an option that may have its value attached. -/
def option (reading : Reading) (option : DirectoryOption) (value : Option String) :
    Except ArgumentError Reading := do
  let arguments ← reading.settle
  match value with
  | some value => return { arguments := ← arguments.store option value }
  | none => return { arguments := arguments, pending := some (option, none) }

/-- Reads a request that ends the reading. -/
def request (reading : Reading) (wanted : ArgumentError) : Except ArgumentError Reading := do
  let _ ← reading.settle
  throw wanted

/-- Reads an option written out, with the text behind an equals sign. -/
def long (reading : Reading) (word name : String) (value : Option String) :
    Except ArgumentError Reading :=
  match name, value with
  | "in", value => reading.option .input value
  | "out", value => reading.option .output value
  | "help", none => reading.request .helpWanted
  | "version", none => reading.request .versionWanted
  | "help", some _ | "version", some _ => .error (.unexpectedValue word)
  | _, _ => .error (.unknown word)

/-- The value attached to a letter, with or without an equals sign. -/
def attached? : List Char → Option String
  | [] => none
  | '=' :: cs => some (String.ofList cs)
  | cs => some (String.ofList cs)

/-- Reads an option of one letter, with what follows the letter. -/
def short (reading : Reading) (word : String) (letter : Char) (rest : List Char) :
    Except ArgumentError Reading :=
  match letter with
  | 'i' => reading.option .input (attached? rest)
  | 'o' => reading.option .output (attached? rest)
  | 'h' => reading.request .helpWanted
  | 'V' => reading.request .versionWanted
  | _ => .error (.unknown word)

/-- Reads a word that is no option: the value of the pending one. -/
def plain (reading : Reading) (word : String) : Except ArgumentError Reading :=
  match reading.pending with
  | some (option, none) => .ok { reading with pending := some (option, some word) }
  | _ => .error (.unknown word)

/-- Reads a word. -/
def word (reading : Reading) (word : String) : Except ArgumentError Reading :=
  match word.toList with
  | '-' :: '-' :: cs =>
    match cs.span (· != '=') with
    | (name, _ :: value) => reading.long word (String.ofList name) (some (String.ofList value))
    | (name, []) => reading.long word (String.ofList name) none
  | '-' :: letter :: rest => reading.short word letter rest
  | _ => reading.plain word

end Reading

/-- The arguments in the words that follow what has been read. Behind `--`
no word can be an option, so there must be none. -/
def parseFrom (reading : Reading) : List String → Except ArgumentError Arguments
  | [] => reading.settle
  | ["--"] => reading.settle
  | "--" :: word :: _ => .error (.unknown word)
  | word :: words => do parseFrom (← reading.word word) words

/-- The arguments in the words of a command line. -/
def parse (words : List String) : Except ArgumentError Arguments := parseFrom {} words

end Arguments
end Javascribe

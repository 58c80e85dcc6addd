/-
# Log formats

How log events are written: as lines of text, as a tree, or as objects of a
data format. The format is chosen by a word in any case.

Key definitions: `LogFormat`, `LogFormat.ofWord`.
-/
import Javascribe.Text.Whitespace

namespace Javascribe

/-- The formats of log events. -/
inductive LogFormat where
  | text
  | tree
  | json
  deriving DecidableEq, Repr

namespace LogFormat

/-- The word for a format. -/
def name : LogFormat → String
  | .text => "text"
  | .tree => "tree"
  | .json => "json"

/-- The format that a word stands for; an unknown word stands for text. -/
def ofWord (word : String) : LogFormat :=
  match (Text.trim word).map Char.toLower with
  | "tree" => .tree
  | "json" => .json
  | _ => .text

end LogFormat
end Javascribe

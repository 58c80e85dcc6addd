/-
# Lines of a text

A line ends at `\r\n`, at a lone `\n` or at a lone `\r`. The line map of a
text is the list of byte offsets at which its lines start; the first line
starts at 0 and lines count from 1. Offsets are natural numbers: texts of less
than 4 GiB are meant, whose offsets fit into 32 bits.

Key definitions: `LineMap.ofText`, `LineMap.search`, `LineMap.lineOf`,
`LineMap.lineStart?`, `LineMap.lineText?`.
-/
import Javascribe.Text.Bytes
import Javascribe.Text.Whitespace

namespace Javascribe

/-- The byte offsets at which the lines of a text start. -/
structure LineMap where
  starts : List Nat

namespace LineMap

/-- The starts of the lines after the first, of a text that begins at `offset`. -/
def startsFrom : List Char → Nat → List Nat
  | [], _ => []
  | '\r' :: '\n' :: cs, offset => (offset + 2) :: startsFrom cs (offset + 2)
  | c :: cs, offset =>
    if Text.isLineBreak c then (offset + 1) :: startsFrom cs (offset + 1)
    else startsFrom cs (offset + c.utf8Size)

/-- The line map of `text`. -/
def ofText (text : String) : LineMap := ⟨0 :: startsFrom text.toList 0⟩

/-- The number of lines. -/
def lineCount (map : LineMap) : Nat := map.starts.length

/-- Where `offset` is among increasing starts: the place at which it stands, or
the place at which it would have to be put in. -/
def search (offset : Nat) : List Nat → Nat ⊕ Nat
  | [] => .inr 0
  | start :: starts =>
    if start = offset then .inl 0
    else if offset < start then .inr 0
    else (search offset starts).map (· + 1) (· + 1)

/-- The line that holds `offset`. -/
def lineOf (map : LineMap) (offset : Nat) : Nat :=
  match search offset map.starts with
  | .inl place => place + 1
  | .inr place => place

/-- The offset at which `line` starts. -/
def lineStart? (map : LineMap) : Nat → Option Nat
  | 0 => none
  | line + 1 => map.starts[line]?

/-- The text of `line`, without what ends it. -/
def lineText? (map : LineMap) (text : String) (line : Nat) : Option String := do
  let start ← map.lineStart? line
  let stop := (map.lineStart? (line + 1)).getD text.utf8ByteSize
  let chars ← Text.slice text.toList start stop
  return String.ofList (chars.reverse.dropWhile Text.isLineBreak).reverse

end LineMap
end Javascribe

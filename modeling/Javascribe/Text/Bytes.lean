/-
# Byte offsets in text

Positions in sources are byte offsets of the UTF-8 form. Text is scanned as
a list of characters, so this module measures characters in bytes and cuts
lists of characters at byte offsets. A cut inside a character, or past the
end, has no result.

Key definitions: `Text.byteLength`, `Text.dropBytes`, `Text.takeBytes`,
`Text.slice`.
-/

namespace Javascribe
namespace Text

/-- The number of bytes of `cs` in UTF-8. -/
def byteLength : List Char → Nat
  | [] => 0
  | c :: cs => c.utf8Size + byteLength cs

/-- What remains of `cs` after its first `n` bytes. -/
def dropBytes : List Char → Nat → Option (List Char)
  | cs, 0 => some cs
  | [], _ + 1 => none
  | c :: cs, n + 1 => if c.utf8Size ≤ n + 1 then dropBytes cs (n + 1 - c.utf8Size) else none

/-- The first `n` bytes of `cs`. -/
def takeBytes : List Char → Nat → Option (List Char)
  | _, 0 => some []
  | [], _ + 1 => none
  | c :: cs, n + 1 =>
    if c.utf8Size ≤ n + 1 then (takeBytes cs (n + 1 - c.utf8Size)).map (c :: ·) else none

/-- The characters from byte `start` up to byte `stop`. -/
def slice (cs : List Char) (start stop : Nat) : Option (List Char) :=
  if stop < start then none
  else (dropBytes cs start).bind (takeBytes · (stop - start))

end Text
end Javascribe

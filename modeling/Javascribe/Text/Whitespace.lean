/-
# White space

The Unicode property White_Space. It has 25 members, of which carriage
return and line feed end lines and the rest only separate tokens.

Key definitions: `Text.isWhitespace`, `Text.isLineBreak`, `Text.trim`.
-/

namespace Javascribe
namespace Text

/-- Whether `c` has the property White_Space. -/
def isWhitespace (c : Char) : Bool :=
  let n := c.toNat
  (9 ≤ n && n ≤ 13) || n == 0x20 || n == 0x85 || n == 0xA0 || n == 0x1680
    || (0x2000 ≤ n && n ≤ 0x200A) || n == 0x2028 || n == 0x2029 || n == 0x202F
    || n == 0x205F || n == 0x3000

/-- Whether `c` ends a line, alone or as half of a pair. -/
def isLineBreak (c : Char) : Bool := c == '\r' || c == '\n'

/-- The text without white space at either end. -/
def trim (s : String) : String :=
  String.ofList ((s.toList.dropWhile isWhitespace).reverse.dropWhile isWhitespace).reverse

end Text
end Javascribe

/-
# Quoting one character in a message

Control characters with a short name, the backslash and the two quotes are
written with a backslash. A character that cannot be shown on its own is
written as its code point in braces. Everything else is shown as it is.

Key definitions: `Text.escaped`.
-/
import Javascribe.Text.Printable

namespace Javascribe
namespace Text

/-- The code point of `c` as `\u` and lower-case hexadecimal digits in braces. -/
def codePointText (c : Char) : String :=
  "\\u\x7b" ++ String.ofList (Nat.toDigits 16 c.toNat) ++ "\x7d"

/-- `c` as it is quoted in a message. -/
def escaped (c : Char) : String :=
  match c with
  | '\x00' => "\\0"
  | '\t' => "\\t"
  | '\r' => "\\r"
  | '\n' => "\\n"
  | '\\' => "\\\\"
  | '\'' => "\\'"
  | '"' => "\\\""
  | c => if isGraphemeExtend c || !isPrintable c then codePointText c else c.toString

end Text
end Javascribe

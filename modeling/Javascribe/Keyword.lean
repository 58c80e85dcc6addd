/-
# Keywords

The words with a fixed meaning, by the role they play when the reader
decides what construct a token starts.

Key definitions: `Keyword.isModifier`, `Keyword.isReserved`.
-/

namespace Javascribe
namespace Keyword

/-- The words that set an access level. -/
def access : List String := ["public", "protected", "private"]

/-- The words that set a flag of a declaration. -/
def flags : List String := ["static", "final", "abstract"]

/-- The words that leave a block. -/
def instructions : List String := ["return", "throw", "continue", "break"]

/-- The words that are values. -/
def values : List String := ["true", "false", "null"]

/-- The types that are not objects. -/
def primitives : List String :=
  ["byte", "short", "int", "long", "float", "double", "boolean", "char"]

/-- Tokens that an operator starts with. -/
def operatorStarts : List String :=
  ["=", "+", "-", "*", "/", "%", "<", ">", "!", "|", "&", "^", "~", "?", "instanceof"]

/-- Words before a parenthesis that call nothing. -/
def control : List String := ["if", "for", "while", "switch", "catch", "synchronized"]

/-- Words right before a bare name. -/
def beforeReference : List String :=
  ["instanceof", "return", "throw", "case", "assert", "else", "do"]

/-- Words that name nothing. -/
def reserved : List String :=
  ["package", "import", "class", "interface", "enum", "extends", "implements", "throws",
    "public", "protected", "private", "static", "final", "abstract", "new", "true", "false",
    "null", "if", "else", "while", "do", "for", "try", "catch", "finally", "switch", "case",
    "default", "return", "throw", "continue", "break", "assert", "instanceof", "byte", "short",
    "int", "long", "float", "double", "boolean", "char", "void"]

/-- Tokens that end a statement without belonging to it. -/
def statementEnds : List String := [";", ":", ",", "]", "\x7d", ")"]

/-- Whether a word sets an access level. -/
def isAccess (word : String) : Bool := access.contains word

/-- Whether a word sets a flag. -/
def isFlag (word : String) : Bool := flags.contains word

/-- Whether a word may stand before a declaration. -/
def isModifier (word : String) : Bool := isAccess word || isFlag word

/-- Whether a word names nothing. -/
def isReserved (word : String) : Bool := reserved.contains word

end Keyword
end Javascribe

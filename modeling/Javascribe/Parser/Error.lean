/-
# Why a source cannot be parsed

A parse error is a cause and the token it was found at.

Key definitions: `ParseCause`, `ParseCause.text`, `ParseError`,
`ParseError.message`.
-/
import Javascribe.Token

namespace Javascribe

/-- The causes of parse errors. A parser that repeats without moving, or uses
others without end, would be `stalled`; no construct of the language is. -/
inductive ParseCause where
  | unexpectedEnd
  | unexpected (kind : TokenKind) (value : String)
  | tooDeep
  | stalled
  | invalidOperator
  | misplacedOperator
  | genericArray (name : String)
  | invalidNumber
  | multiLineString
  | openComment
  | staticGroup
  | missingCatch
  | baseClasses (name : String) (count : Nat)
  | interfaceCode (name : String)
  | annotatedInitializer
  | other (text : String)
  deriving DecidableEq, Repr

/-- The wording of a cause. -/
def ParseCause.text : ParseCause → String
  | .unexpectedEnd => "Unexpected end of input"
  | .unexpected kind value => s!"Unexpected {kind.description} '{value}'"
  | .tooDeep => "Maximum parsing depth exceeded"
  | .stalled => "The parser does not advance"
  | .invalidOperator => "Invalid operator"
  | .misplacedOperator => "Invalid operator placement"
  | .genericArray name => s!"[] type '{name}' cannot be generic"
  | .invalidNumber => "Invalid number literal"
  | .multiLineString => "String literals must be single-line only"
  | .openComment => "Unterminated block comment"
  | .staticGroup => "Non-default imports cannot be static"
  | .missingCatch => "Invalid missing catch block"
  | .baseClasses name count => s!"Derived class '{name}' cannot extend {count} base classes"
  | .interfaceCode name => s!"Interface '{name}' cannot have constructors or initializers"
  | .annotatedInitializer => "Initializer blocks cannot have annotations"
  | .other text => text

/-- A cause, at the line and byte range of a token. -/
structure ParseError where
  cause : ParseCause
  line : Nat
  start : Nat
  length : Nat
  deriving DecidableEq, Repr

/-- The message of a parse error. -/
def ParseError.message (error : ParseError) : String :=
  s!"Line {error.line}: {error.cause.text}"

end Javascribe

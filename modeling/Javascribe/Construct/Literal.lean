/-
# Literals

Keywords, numbers, strings and arrays. The digits of a number are one
token; a hexadecimal part, an exponent or a type suffix is a word right
after it, and the suffix is not kept. A string is its source text from quote
to quote.

Key definitions: `Construct.literal`.
-/
import Javascribe.Parser.Production

namespace Javascribe
namespace Construct

open Javascribe.Parser

/-- Whether a word is an exponent such as `e10`. -/
def isExponent (word : String) : Bool :=
  match word.toList with
  | 'e' :: digits | 'E' :: digits => !digits.isEmpty && digits.all Char.isDigit
  | _ => false

/-- Whether a word is the rest of a hexadecimal number. -/
def isHexadecimal (word : String) : Bool :=
  match word.toList with
  | 'x' :: _ | 'X' :: _ => true
  | _ => false

/-- What of a word right after a number is kept; nothing when it cannot stand there. -/
def numberTail? (digits word : String) : Option String :=
  if (digits == "0" && isHexadecimal word) || isExponent word then some word
  else if ["f", "F", "d", "D", "l", "L"].contains word then some ""
  else none

/-- A number. -/
def number : Handler Tree.Literal := fun literal => do
  let cursor ← get
  let tail := cursor.peekRaw
  if cursor.tokens.isWord tail && cursor.tokens.areAdjacent cursor.current tail then
    match numberTail? cursor.value (cursor.tokens.value tail) with
    | none => fail .invalidNumber
    | some rest =>
      advanceRaw
      finish { literal with kind := .number, value := cursor.value ++ rest }
  else finish { literal with kind := .number, value := cursor.value }

/-- Goes on to the next token in the search for a closing quote. -/
def closingStep (quote : String) (isEscaped : Bool) : Parser (Bool ⊕ Unit) := do
  advanceRaw
  let cursor ← get
  if cursor.tokens.isNewline cursor.current then fail .multiLineString
  else if cursor.isEof then unexpected
  else if cursor.is quote && !isEscaped then return .inr ()
  else return .inl (cursor.is "\\" && !isEscaped)

/-- Steps to the next quote that no backslash escapes. -/
def closingQuote (quote : String) : Parser Unit := iterate false (closingStep quote)

/-- A string, from its opening quote on. -/
def string : Handler Tree.Literal := fun literal => do
  let cursor ← get
  closingQuote cursor.value
  let text := cursor.tokens.sourceBetween cursor.current (← get).current
  finish { literal with kind := .string, value := text }

/-- An array, from its opening brace on. -/
def array (parse : Family) : Handler Tree.Literal := fun literal => do
  next
  let elements ← commaList (parse .statement) "\x7d"
  ensure (← isAt "\x7d")
  finish { literal with kind := .array, elements := elements }

/-- The kinds of literals, by their first token. -/
def literalGrammar (parse : Family) : Grammar Tree.Literal Tree.Literal where
  begin := fun token => ⟨.keyword, "", [], token⟩
  rules := [
    ⟨.literal "\x7b", array parse⟩,
    ⟨.anyOf Keyword.values, fun literal => do
      finish { literal with kind := .keyword, value := (← get).value }⟩,
    ⟨.number, number⟩,
    ⟨.quote, string⟩]
  complete := pure

/-- A literal. -/
def literal (parse : Family) : Parser Tree.Literal := (literalGrammar parse).parse

end Construct
end Javascribe

/-
# Looking ahead

What construct starts at a token is decided from the tokens around it.
Mostly one or two of them are enough; type arguments, casts to longer types
and lambdas with several parameters are followed to the token that decides.

Key definitions: `TokenStream.opensTypeArguments`, `TokenStream.startsReference`,
`TokenStream.startsType`, `TokenStream.startsChain`, `TokenStream.startsCall`,
`TokenStream.startsLambda`, `TokenStream.startsCast`.
-/
import Javascribe.Keyword
import Javascribe.Text.Alphanumeric
import Javascribe.Token.Search

namespace Javascribe
namespace TokenStream

variable (tokens : TokenStream)

/-- The text of the next text token. -/
def nextTextValue (id : Nat) : String := tokens.value (tokens.nextText id)

/-- The text of the next token. -/
def nextValue (id : Nat) : String := tokens.value (tokens.next id)

/-- Whether a token may stand before a declaration. -/
def isModifier (id : Nat) : Bool := Keyword.isModifier (tokens.value id)

/-- The first token from `id` on that is no modifier, at most `fuel` steps away. -/
def skipModifiersFrom : Nat → Nat → Nat
  | 0, id => id
  | fuel + 1, id =>
    if tokens.isModifier id then skipModifiersFrom fuel (tokens.nextText id) else id

/-- The first token from `id` on that is no modifier. -/
def skipModifiers (id : Nat) : Nat := tokens.skipModifiersFrom tokens.size id

/-- Whether a class, interface or enum starts here, modifiers included. -/
def startsObject (id : Nat) : Bool :=
  ["class", "interface", "enum"].contains (tokens.value (tokens.skipModifiers id))

/-- Whether a character can be part of a word. -/
def isNameChar (c : Char) : Bool := Text.isAlphanumeric c || c == '_' || c == '$'

/-- Whether a token cannot stand among type arguments. -/
def isForeignToTypes (id : Nat) : Bool :=
  tokens.isNumber id
    || (tokens.value id).toList.any fun c => !(isNameChar c || "?&<>,.[]".toList.contains c)

/-- Whether a token cannot follow the parenthesis that closes a cast. -/
def isForeignToCasts (id : Nat) : Bool :=
  tokens.value id == "instanceof"
    || (tokens.value id).toList.any fun c => !(isNameChar c || "(\"'".toList.contains c)

/-- Whether a closing angle bracket comes, within `fuel` steps, before any
token that cannot stand among type arguments. An ampersand can only in a
bound, and not twice in a row. -/
def closesTypeArguments : Nat → Bool → Nat → Bool
  | 0, _, _ => false
  | fuel + 1, inBound, id =>
    let id := tokens.nextText id
    if tokens.isEof id then false
    else if tokens.value id == ">" then true
    else if tokens.value id == "extends" then closesTypeArguments fuel true id
    else if tokens.value id == "&" then
      inBound && tokens.nextValue id != "&" && closesTypeArguments fuel inBound id
    else !tokens.isForeignToTypes id && closesTypeArguments fuel inBound id

/-- Whether the token is an angle bracket that opens type arguments, and not
a comparison. -/
def opensTypeArguments (id : Nat) : Bool :=
  tokens.value id == "<" && tokens.closesTypeArguments tokens.size false id

/-- Whether an arrow starts here. -/
def startsArrow (id : Nat) : Bool :=
  tokens.value id == "-" && tokens.nextValue id == ">" && tokens.areAdjacent id (tokens.next id)

/-- Whether a constructor starts here, in a body. -/
def startsConstructor (id : Nat) : Bool :=
  tokens.isWord id && !Keyword.isReserved (tokens.value id) && tokens.nextTextValue id == "("

/-- Whether an initializer starts here, in a body. -/
def startsInitializer (id : Nat) : Bool :=
  tokens.value id == "\x7b"
    || (tokens.value id == "static" && tokens.nextTextValue id == "\x7b")

/-- Whether nothing before a word makes it part of something else. -/
def isFlankedBefore (id : Nat) : Bool :=
  tokens.isStartOfLine id
    || (tokens.previousText id).all fun previous =>
      !tokens.isWord previous || Keyword.beforeReference.contains (tokens.value previous)

/-- Whether the text after a word ends it: `instanceof`, or a symbol or
number that does not continue the word. -/
def isFlankedAfter (id : Nat) : Bool :=
  let next := tokens.nextText id
  tokens.value next == "instanceof"
    || (!tokens.isWord next && !tokens.isEof next
      && !([".", "(", "[", "\x7b"].contains (tokens.value next)))

/-- Whether a bare name that stands alone as a value starts here. -/
def startsReference (id : Nat) : Bool :=
  tokens.isWord id && tokens.isFlankedBefore id && tokens.isFlankedAfter id
    && !tokens.opensTypeArguments (tokens.next id)

/-- Whether a type starts here: before a name, brackets or type arguments. -/
def startsType (id : Nat) : Bool :=
  let text := tokens.nextText id
  let next := tokens.next id
  tokens.isWord id
    && ((tokens.isWord text && tokens.value text != "instanceof")
      || (tokens.value next == "[" && tokens.nextValue next == "]")
      || tokens.opensTypeArguments next)

/-- Whether a name with a property or an index starts here. -/
def startsChain (id : Nat) : Bool :=
  tokens.isWord id && [".", "["].contains (tokens.nextTextValue id)
    && tokens.nextValue (tokens.next id) != "]"

/-- Whether a call by name starts here. -/
def startsCall (id : Nat) : Bool :=
  tokens.isWord id && !Keyword.control.contains (tokens.value id) && tokens.nextTextValue id == "("

/-- Whether a literal starts here. -/
def startsLiteral (id : Nat) : Bool :=
  tokens.isNumber id || ["\"", "'", "\x7b"].contains (tokens.value id)
    || Keyword.values.contains (tokens.value id)

/-- Whether an operator starts here. -/
def startsOperator (id : Nat) : Bool := Keyword.operatorStarts.contains (tokens.value id)

/-- Whether an instruction starts here. -/
def startsInstruction (id : Nat) : Bool := Keyword.instructions.contains (tokens.value id)

/-- Whether the token is a question mark that asks for two values, and not
the start of `?:`. -/
def startsTernary (id : Nat) : Bool := tokens.value id == "?" && tokens.nextTextValue id != ":"

/-- Whether a lambda starts here. -/
def startsLambda (id : Nat) : Bool :=
  if tokens.isWord id then tokens.startsArrow (tokens.nextText id)
  else
    tokens.value id == "("
      && (tokens.search id .nextText
        (fun id => tokens.value id == ")" && tokens.startsArrow (tokens.nextText id))
        tokens.isForeignToTypes).isSome

/-- Whether a cast starts here: a type in parentheses with a value after it. -/
def startsCast (id : Nat) : Bool :=
  let first := tokens.nextText id
  let second := tokens.nextText first
  tokens.value id == "(" && tokens.isWord first
    && (!Keyword.isReserved (tokens.value first)
      || Keyword.primitives.contains (tokens.value first))
    && (if tokens.value second == ")" then !tokens.isForeignToCasts (tokens.nextText second)
      else
        (tokens.search id .nextText
          (fun id => tokens.value id == ")" && !tokens.isForeignToCasts (tokens.nextText id))
          tokens.isForeignToTypes).isSome)

/-- Whether a comment starts here: a slash with a slash or a star right after it. -/
def startsComment (id : Nat) : Bool :=
  tokens.value id == "/" && ["/", "*"].contains (tokens.nextValue id)
    && tokens.areAdjacent id (tokens.next id)

/-- Whether a closing parenthesis is next. -/
def precedesClose (id : Nat) : Bool := tokens.nextTextValue id == ")"

end TokenStream
end Javascribe

/-
# Types

`a.b.C<D, E<F>>[][]`. The names of a chain are read token by token, so
`a . b` is no type. An empty pair of angle brackets leaves the arguments
open. The wildcard `?` reads as `Object`, `? extends T` as `T`.

Key definitions: `Construct.typeRef`, `Construct.typeParameter`.
-/
import Javascribe.Parser.Production

namespace Javascribe
namespace Construct

open Javascribe.Parser

/-- Values with commas between them, up to `close`, which is eaten. -/
def listUpTo {α : Type} (value : Parser α) (close : String) : Parser (List α) := do
  let values ← commaList value close
  eat close
  return values

/-- The names after the first one of a chain. -/
def typeNames (first : String) : Parser (List String) :=
  iterate [first] fun names => do
    let cursor ← get
    let name := cursor.tokens.next cursor.peekRaw
    if cursor.nextRawIs "." && cursor.tokens.isWord name then
      advanceRaw
      advanceRaw
      return .inl (cursor.tokens.value name :: names)
    else return .inr names.reverse

/-- A wildcard, from its question mark on. -/
def wildcard (parse : Family) (token : Nat) : Parser TypeRef := do
  next
  if ← allow "extends" then parse .typeRef
  else
    if ← allow "super" then discard (parse .typeRef)
    return .named "Object" token

/-- The type arguments, from the opening bracket on. After them the type
ends unless an array bracket follows at once. -/
def typeArguments (parse : Family) : Handler TypeRef := fun type => do
  ensureElse (!type.isArray) (.genericArray type.name)
  next
  if ← allow ">" then proceed type
  else
    let type := { type with arguments := ← commaList (parse .typeRef) ">" }
    ensure (← isAt ">")
    if (← get).nextRawIs "[" then proceed type else finish type

/-- The parts of a type. -/
def typeRefGrammar (parse : Family) : Grammar TypeRef TypeRef where
  begin := fun token => ⟨[], [], 0, token⟩
  first := fun type => do
    let cursor ← get
    if cursor.is "?" then stop (← wildcard parse cursor.current)
    else
      ensure cursor.isWord
      let names ← typeNames cursor.value
      next
      proceed { type with names := names }
  rules := [
    ⟨.literal "[", fun type => do
      if (← get).nextRawIs "]" then proceed type else stop type⟩,
    ⟨.literal "]", fun type => proceed { type with dimensions := type.dimensions + 1 }⟩,
    ⟨.literal "<", typeArguments parse⟩,
    ⟨.literal ">", fun type => do
      if !type.arguments.isEmpty && (← get).nextRawIs "[" then proceed type else stop type⟩,
    ⟨.anyText, stop⟩]
  complete := pure

/-- A type. -/
def typeRef (parse : Family) : Parser TypeRef := (typeRefGrammar parse).parse

/-- The bounds of a type parameter, which are not kept. -/
def bounds (parse : Family) : Parser Unit :=
  iterate () fun () => do
    discard (parse .typeRef)
    if ← allow "&" then return .inl () else return .inr ()

/-- A type parameter with its bounds, of which the name is kept. -/
def typeParameter (parse : Family) : Parser String := construct fun _ => do
  let name ← eatWord
  if ← allow "extends" then bounds parse
  return name

/-- `<T, U extends V>` -/
def typeParameters (parse : Family) : Parser (List String) := do
  eat "<"
  listUpTo (parse .typeParameter) ">"

/-- `<T, U>`, or nothing. -/
def optionalTypeArguments (parse : Family) : Parser (List TypeRef) := do
  if ← allow "<" then listUpTo (parse .typeRef) ">" else return []

end Construct
end Javascribe

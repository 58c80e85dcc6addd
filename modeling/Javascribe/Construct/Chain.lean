/-
# Names, calls and chains

A chain reads links as long as dots, brackets and parentheses continue it.
A chain that ends in a type is the type of a declaration.

Key definitions: `Construct.reference`, `Construct.call`, `Construct.chain`.
-/
import Javascribe.Construct.TypeRef

namespace Javascribe
namespace Construct

open Javascribe.Parser

/-- A bare name. -/
def reference : Parser Tree.Reference := construct fun token => do
  return ⟨← eatWord, token⟩

/-- `name(arguments)`, `<T>name(arguments)`, or `(arguments)` that continues a value. -/
def call (parse : Family) : Parser Tree.Call := construct fun token => do
  let typeArguments ← optionalTypeArguments parse
  let name ← if (← get).isWord then some <$> eatWord else pure none
  eat "("
  let arguments ← listUpTo (parse .statement) ")"
  return ⟨name, typeArguments, arguments, token⟩

/-- Whether a link is a bare name. -/
def isReference : Tree.Property → Bool
  | .reference _ => true
  | _ => false

/-- A word in a chain: a call, a type or a bare name. Only after a dot it
belongs to the chain. -/
def namedLink (parse : Family) : Handler Tree.Chain := fun chain => do
  let cursor ← get
  if !chain.properties.isEmpty && !cursor.followsRaw "." then stop chain
  else if cursor.tokens.startsCall cursor.current then
    let call ← parse .call
    proceed { chain with properties := chain.properties ++ [.call call] }
  else if cursor.tokens.startsType cursor.current then
    ensure (chain.properties.all isReference)
    let type ← parse .typeRef
    stop { chain with properties := chain.properties ++ [.type type] }
  else
    let reference ← parse .reference
    proceed { chain with properties := chain.properties ++ [.reference reference] }

/-- A dot in a chain, and the call with type arguments that may follow it. -/
def dottedLink (parse : Family) : Handler Tree.Chain := fun chain => do
  let cursor ← get
  let after := cursor.tokens.value cursor.peekRaw
  ensure (cursor.tokens.isText cursor.peekRaw && !([".", "["].contains after))
  next
  if ← isAt "<" then
    let call ← parse .call
    proceed { chain with properties := chain.properties ++ [.call call] }
  else proceed chain

/-- An index in a chain. -/
def indexLink (parse : Family) : Handler Tree.Chain := fun chain => do
  next
  let index ← parse .statement
  eat "]"
  proceed { chain with properties := chain.properties ++ [.index index] }

/-- Arguments after a call or an index. -/
def argumentsLink (parse : Family) : Handler Tree.Chain := fun chain => do
  if (← get).follows [")", "]"] && !chain.properties.isEmpty then
    let call ← parse .call
    proceed { chain with properties := chain.properties ++ [.call call] }
  else stop chain

/-- The links of a chain, by their first token. -/
def chainGrammar (parse : Family) : Grammar Tree.Chain Tree.Chain where
  begin := fun token => ⟨[], token⟩
  rules := [
    ⟨.literal ".", dottedLink parse⟩,
    ⟨.literal "[", indexLink parse⟩,
    ⟨.literal "(", argumentsLink parse⟩,
    ⟨.word, namedLink parse⟩,
    ⟨.anyText, stop⟩]
  complete := fun chain => do
    ensure (!chain.properties.isEmpty)
    return chain

/-- A chain. -/
def chain (parse : Family) : Parser Tree.Chain := (chainGrammar parse).parse

end Construct
end Javascribe

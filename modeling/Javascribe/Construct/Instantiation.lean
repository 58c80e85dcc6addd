/-
# Instantiations

`new T(arguments)`, with a body or without one, `new T[size]` and `new T[]`
with a literal.

Key definitions: `Construct.instantiation`.
-/
import Javascribe.Parser.Production

namespace Javascribe
namespace Construct

open Javascribe.Parser

/-- What has been read of an instantiation. -/
structure InstantiationDraft where
  constructed : Option TypeRef
  arguments : List Tree.Statement
  arraySize : Option Tree.Statement
  arrayLiteral : Option Tree.Literal
  body : Option Tree.ObjectBody
  isObject : Bool
  token : Nat

/-- The size of an array, up to its closing bracket. -/
def arraySize (parse : Family) : Handler InstantiationDraft := fun draft => do
  next
  let size ← parse .statement
  ensure (← isAt "]")
  proceed { draft with arraySize := some size }

/-- The arguments, up to the closing parenthesis. -/
def constructorArguments (parse : Family) : Handler InstantiationDraft := fun draft => do
  ensure draft.arraySize.isNone
  next
  let arguments ← commaList (parse .statement) ")"
  ensure (← isAt ")")
  proceed { draft with arguments := arguments, isObject := true }

/-- A closing bracket or parenthesis ends the instantiation unless a brace follows. -/
def closeBeforeBody : Handler InstantiationDraft := fun draft => do
  if (← get).nextIs "\x7b" then proceed draft else finish draft

/-- The body of an object or the literal of an array. -/
def instantiationBody (parse : Family) : Handler InstantiationDraft := fun draft => do
  if draft.isObject then
    next
    let body ← parse .body
    stop { draft with body := some body }
  else
    ensure (draft.constructed.any (·.isArray) && draft.arraySize.isNone)
    let literal ← parse .literal
    stop { draft with arrayLiteral := some literal }

/-- The parts of an instantiation. -/
def instantiationGrammar (parse : Family) : Grammar InstantiationDraft Tree.Instantiation where
  begin := fun token => ⟨none, [], none, none, none, false, token⟩
  steps := [
    .eat (.literal "new") proceed,
    .eat .word fun draft => do
      let type ← parse .typeRef
      proceed { draft with constructed := some type },
    .allow (.literal "[") (arraySize parse),
    .allow (.literal "]") closeBeforeBody,
    .allow (.literal "(") (constructorArguments parse),
    .allow (.literal ")") closeBeforeBody,
    .allow (.literal "\x7b") (instantiationBody parse)]
  complete := fun draft => do
    match draft.constructed with
    | none => unexpected
    | some type =>
      ensure (draft.isObject || draft.arraySize.isSome || draft.arrayLiteral.isSome)
      return ⟨type, draft.arguments, draft.arraySize, draft.arrayLiteral, draft.body, draft.token⟩

/-- An instantiation. -/
def instantiation (parse : Family) : Parser Tree.Instantiation := (instantiationGrammar parse).parse

end Construct
end Javascribe

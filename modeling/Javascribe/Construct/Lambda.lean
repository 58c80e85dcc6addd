/-
# Declarations of variables, and lambdas

Key definitions: `Construct.declaration`, `Construct.lambda`.
-/
import Javascribe.Parser.Production

namespace Javascribe
namespace Construct

open Javascribe.Parser

/-- What has been read of a declaration. -/
structure DeclarationDraft where
  isFinal : Bool
  type : Option TypeRef
  name : String
  isVariadic : Bool
  token : Nat

/-- The three dots of a variadic parameter. -/
def ellipsis : Handler DeclarationDraft := fun draft => do
  ensure (!draft.isVariadic)
  eat "."
  eat "."
  eat "."
  proceed { draft with isVariadic := true }

/-- The parts of a declaration. -/
def declarationGrammar (parse : Family) : Grammar DeclarationDraft Tree.Variable where
  begin := fun token => ⟨false, none, "", false, token⟩
  first := fun draft => do
    let isFinal ← allow "final"
    let type ← parse .typeRef
    proceed { draft with isFinal := isFinal, type := some type }
  rules := [
    ⟨.literal ".", ellipsis⟩,
    ⟨.word, fun draft => do finish { draft with name := (← get).value }⟩]
  complete := fun draft => do
    match draft.type with
    | none => unexpected
    | some type =>
      ensure (!draft.name.isEmpty)
      return ⟨draft.isFinal, type, draft.name, draft.isVariadic, draft.token⟩

/-- `[final] Type [...] name`. An initial value is left to the statement. -/
def declaration (parse : Family) : Parser Tree.Variable := (declarationGrammar parse).parse

/-- A parameter of a lambda. -/
def lambdaParameter (parse : Family) : Parser Tree.LambdaParameter := do
  let cursor ← get
  if cursor.tokens.startsType cursor.current then .typed <$> parse .declaration
  else .untyped <$> parse .reference

/-- The parameters of a lambda, up to the closing parenthesis, which is eaten. -/
def lambdaParameters (parse : Family) : Parser (List Tree.LambdaParameter) :=
  iterate [] fun parameters => do
    if ← allow ")" then return .inr parameters.reverse
    let parameter ← lambdaParameter parse
    if !(← isAt ")") then eat ","
    return .inl (parameter :: parameters)

/-- The parameters of a lambda: one name, or a list in parentheses. -/
def lambdaHead (parse : Family) : Parser (List Tree.LambdaParameter) := do
  let single ← if (← get).isWord then (fun name => [.untyped name]) <$> parse .reference
    else pure []
  if ← isAt "(" then
    ensure single.isEmpty
    next
    lambdaParameters parse
  else return single

/-- A lambda. -/
def lambda (parse : Family) : Parser Tree.Lambda := construct fun token => do
  let parameters ← lambdaHead parse
  let cursor ← get
  ensure (cursor.tokens.startsArrow cursor.current)
  advanceRaw
  next
  let cursor ← get
  if cursor.is "\x7b" then return ⟨parameters, .block (← parse .block), token⟩
  ensure (cursor.matches .anyText)
  return ⟨parameters, .statement (← parse .statement), token⟩

end Construct
end Javascribe

/-
# Branches

`if`, `switch` and `try`. An `else if` joins the chain it continues. Braces
around the statements of a case are not kept.

Key definitions: `Construct.ifElse`, `Construct.switch`, `Construct.tryCatch`.
-/
import Javascribe.Construct.Block

namespace Javascribe
namespace Construct

open Javascribe.Parser

/-- A chain of `if` and `else`. -/
def ifElse (parse : Family) : Parser Tree.IfElse := construct fun token => do
  eat "if"
  let condition ← condition parse
  let block ← bodyBlock parse
  if ← allow "else" then
    if ← isAt "if" then
      let rest ← parse .ifElse
      return ⟨condition :: rest.conditions, block :: rest.blocks, token⟩
    else return ⟨[condition], [block, ← bodyBlock parse], token⟩
  else return ⟨[condition], [block], token⟩

/-- The statements up to the next label or the closing brace. -/
def caseBlock (parse : Family) : Parser Tree.Block := do
  let token := (← get).current
  iterate [] fun statements => do
    let cursor ← get
    if cursor.isEof || cursor.is "case" || cursor.is "default" || cursor.is "\x7d" then
      return .inr ⟨statements, token⟩
    else if cursor.is ";" then
      next
      return .inl statements
    else if cursor.is "\x7b" then
      return .inl (statements ++ (← parse .block).statements)
    else return .inl (statements ++ [← filledStatement parse])

/-- The labels of a switch with their blocks, up to the closing brace. -/
def switchLabels (parse : Family) (switch : Tree.Switch) : Parser Tree.Switch :=
  iterate switch fun switch => do
    let cursor ← get
    if cursor.is "\x7d" then return .inr switch
    else if cursor.is "case" then
      next
      ensure (!(← isAt ":"))
      let label ← parse .statement
      eat ":"
      let block ← caseBlock parse
      return .inl { switch with
        cases := switch.cases ++ [label], blocks := switch.blocks ++ [block] }
    else if cursor.is "default" then
      ensure switch.default.isNone
      next
      eat ":"
      return .inl { switch with default := some (← caseBlock parse) }
    else unexpected

/-- A switch. -/
def switch (parse : Family) : Parser Tree.Switch := construct fun token => do
  eat "switch"
  let value ← condition parse
  eat "\x7b"
  let switch ← switchLabels parse ⟨value, [], [], none, token⟩
  next
  return switch

/-- A block that has to be in braces. -/
def bracedBlock (parse : Family) : Parser Tree.Block := do
  ensure (← isAt "\x7b")
  parse .block

/-- Whether a `try` has a clause after it. -/
def hasClause (tryCatch : Tree.TryCatch) : Bool :=
  !tryCatch.catchBlocks.isEmpty || tryCatch.finallyBlock.isSome

/-- `catch ([final] A | B e)` and its block. -/
def catchClause (parse : Family) : Handler Tree.TryCatch := fun tryCatch => do
  ensure tryCatch.finallyBlock.isNone
  next
  eat "("
  discard (allow "final")
  let types ← sequence (parse .typeRef) (.literal "|") (.predicate TokenStream.precedesClose)
  ensure (!types.isEmpty)
  let name ← parse .reference
  eat ")"
  let block ← bracedBlock parse
  proceed { tryCatch with
    exceptionTypes := tryCatch.exceptionTypes ++ [types]
    exceptionNames := tryCatch.exceptionNames ++ [name]
    catchBlocks := tryCatch.catchBlocks ++ [block] }

/-- The clauses of a `try`. -/
def tryCatchGrammar (parse : Family) : Grammar Tree.TryCatch Tree.TryCatch where
  begin := fun token => ⟨⟨[], token⟩, [], [], [], none, token⟩
  steps := [.eat (.literal "try") fun tryCatch => do
    next
    proceed { tryCatch with block := ← bracedBlock parse }]
  rules := [
    ⟨.literal "catch", catchClause parse⟩,
    ⟨.literal "finally", fun tryCatch => do
      next
      let block ← bracedBlock parse
      stop { tryCatch with finallyBlock := some block }⟩,
    ⟨.anyText, fun tryCatch => do
      ensureElse (hasClause tryCatch) .missingCatch
      stop tryCatch⟩]
  complete := fun tryCatch => do
    ensureElse (hasClause tryCatch) .missingCatch
    return tryCatch

/-- `try` with its clauses. -/
def tryCatch (parse : Family) : Parser Tree.TryCatch := (tryCatchGrammar parse).parse

end Construct
end Javascribe

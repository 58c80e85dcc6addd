/-
# Blocks, instructions and conditions

Key definitions: `Construct.block`, `Construct.bodyBlock`,
`Construct.condition`, `Construct.instruction`, `Construct.assertion`.
-/
import Javascribe.Parser.Production

namespace Javascribe
namespace Construct

open Javascribe.Parser

/-- What has been read of a block. -/
structure BlockDraft where
  block : Tree.Block
  isBraced : Bool
  isClosed : Bool

/-- One more statement of a block; it has to compute something. -/
def filledStatement (parse : Family) : Parser Tree.Statement := do
  let statement ← parse .statement
  ensure statement.hasOperand
  return statement

/-- The parts of a block. -/
def blockGrammar (parse : Family) : Grammar BlockDraft Tree.Block where
  begin := fun token => ⟨⟨[], token⟩, false, false⟩
  steps := [.allow (.literal "\x7b") fun draft => proceed { draft with isBraced := true }]
  rules := [
    ⟨.literal ";", proceed⟩,
    ⟨.literal "\x7d", fun draft => finish { draft with isClosed := true }⟩,
    ⟨.anyText, fun draft => do
      let statement ← filledStatement parse
      let statements := draft.block.statements ++ [statement]
      proceed { draft with block := { draft.block with statements := statements } }⟩]
  complete := fun draft => do
    ensure (!draft.isBraced || draft.isClosed)
    return draft.block

/-- Statements between braces. -/
def block (parse : Family) : Parser Tree.Block := (blockGrammar parse).parse

/-- A block, or one statement with its semicolon in place of it. -/
def bodyBlock (parse : Family) : Parser Tree.Block := do
  let cursor ← get
  if cursor.is "\x7b" then parse .block
  else
    let statement ← parse .statement
    if !(← allow ";") then ensure statement.hasOperand
    if statement.hasOperand then return ⟨[statement], statement.token⟩
    else return ⟨[], cursor.current⟩

/-- A condition in parentheses. -/
def condition (parse : Family) : Parser Tree.Statement := do
  eat "("
  let condition ← filledStatement parse
  eat ")"
  return condition

/-- `return`, `throw`, `continue` or `break`, up to the semicolon. -/
def instruction (parse : Family) : Parser Tree.Instruction := construct fun token => do
  match Tree.InstructionKind.ofKeyword? (← get).value with
  | none => unexpected
  | some kind =>
    next
    let cursor ← get
    if cursor.is ";" || cursor.is "\x7d" || cursor.isEof then return ⟨kind, none, token⟩
    else return ⟨kind, some (← parse .statement), token⟩

/-- `assert condition` or `assert condition : message`, up to the semicolon. -/
def assertion (parse : Family) : Parser Tree.Assertion := construct fun token => do
  eat "assert"
  let condition ← parse .statement
  let message ← if ← allow ":" then some <$> parse .statement else pure none
  return ⟨condition, message, token⟩

end Construct
end Javascribe

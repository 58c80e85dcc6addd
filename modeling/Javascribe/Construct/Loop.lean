/-
# Loops

Key definitions: `Construct.forLoop`, `Construct.whileLoop`,
`Construct.doWhileLoop`.
-/
import Javascribe.Construct.Block

namespace Javascribe
namespace Construct

open Javascribe.Parser

/-- A statement, unless the current token is `close`. -/
def statementUnless (parse : Family) (close : String) : Parser (Option Tree.Statement) := do
  if ← isAt close then return none else some <$> parse .statement

/-- `for (initialization; condition; increment)` or `for (T x : iterable)`. -/
def forLoop (parse : Family) : Parser Tree.ForLoop := construct fun token => do
  eat "for"
  eat "("
  let initialization ← statementUnless parse ";"
  if ← isAt ":" then
    ensure initialization.isSome
    next
    let iterable ← parse .statement
    eat ")"
    return ⟨initialization, none, none, some iterable, true, ← bodyBlock parse, token⟩
  else
    eat ";"
    let condition ← statementUnless parse ";"
    eat ";"
    let increment ← statementUnless parse ")"
    eat ")"
    return ⟨initialization, condition, increment, none, false, ← bodyBlock parse, token⟩

/-- `while (condition)` -/
def whileLoop (parse : Family) : Parser Tree.WhileLoop := construct fun token => do
  eat "while"
  let condition ← condition parse
  return ⟨condition, ← bodyBlock parse, token⟩

/-- `do … while (condition)`, up to the semicolon. -/
def doWhileLoop (parse : Family) : Parser Tree.DoWhileLoop := construct fun token => do
  eat "do"
  ensure (← isAt "\x7b")
  let block ← parse .block
  eat "while"
  return ⟨block, ← condition parse, token⟩

end Construct
end Javascribe

/-
# Operators and assignments

What an operation gives for the types of its operands. A wrong operand is
reported, and the result can then be anything, so that one wrong operand
does not hide what is wrong in the rest of an expression.

Key definitions: `Checker.castTo`, `Checker.binary`, `Checker.unaryOperand?`,
`Checker.assigned`.
-/
import Javascribe.Checking.Checker

namespace Javascribe
namespace Checker

open Javascribe.Tree

/-- Declares a variable and gives its type. -/
def declareVariable (declaration : Variable) (isConstant : Bool) : Checker Constraint := do
  let declared ← localOf declaration.name declaration.type isConstant
  declare declared
  return declared.constraint

/-- Whether a constraint is exactly a string or a number. -/
def isTextual (constraint : Constraint) : Checker Bool :=
  isExactly constraint .string <||> isExactly constraint .number

/-- A value cast to a type. Related types can be cast into each other, and
so can strings and numbers. -/
def castTo (source : Constraint) (type : TypeRef) : Checker Constraint := do
  let target ← typeOf type
  let isRelated ← fits source target <||> fits target source
  unless ← pure isRelated <||> (isTextual source <&&> isTextual target) do
    report type.token .cannotCast [← typeName source, ← typeName target]
  return target

/-- A value with a cast that may be absent. -/
def castToOption (source : Constraint) : Option TypeRef → Checker Constraint
  | none => pure source
  | some type => castTo source type

/-- Reports that an operator cannot take an operand. -/
def invalidOperator (use : OperatorUse) (operand : Constraint) : Checker Constraint := do
  report use.token .invalidOperator [use.operation.symbol, ← typeName operand]
  return .dynamic

/-- `expected`, when an operand fits it. -/
def expectOperand (use : OperatorUse) (operand expected : Constraint) : Checker Constraint := do
  if ← fits operand expected then return expected else invalidOperator use operand

/-- `result`, when both operands fit `expected`; the first that does not is reported. -/
def expectOperands (use : OperatorUse) (left right expected result : Constraint) :
    Checker Constraint := do
  if ← fits left expected then
    if ← fits right expected then return result else invalidOperator use right
  else invalidOperator use left

/-- A sum. One string makes it a string. -/
def sum (use : OperatorUse) (left right : Constraint) : Checker Constraint := do
  if ← isExactly left .string <||> isExactly right .string then return Native.string
  else
    let result := if left.isDynamic || right.isDynamic then .dynamic else Native.number
    expectOperands use left right Native.number result

/-- An operation on the bits of numbers or on truth values. -/
def bitwise (use : OperatorUse) (left right : Constraint) : Checker Constraint := do
  let areNumbers ← fits left Native.number <&&> fits right Native.number
  if ← pure !areNumbers <&&> fits left Native.boolean <&&> fits right Native.boolean then
    return Native.boolean
  else expectOperands use left right Native.number Native.number

/-- The type of an operation on two values. -/
def binary (use : OperatorUse) (left right : Constraint) : Checker Constraint :=
  match use.operation with
  | .add => sum use left right
  | .bitAnd | .bitOr | .bitXor => bitwise use left right
  | .equal | .notEqual => pure Native.boolean
  | .and | .or => expectOperands use left right Native.boolean Native.boolean
  | .elvis => pure left
  | .less | .lessOrEqual | .greater | .greaterOrEqual =>
    expectOperands use left right Native.number Native.boolean
  | .subtract | .multiply | .divide | .remainder | .shiftLeft | .shiftRight
  | .shiftRightUnsigned => expectOperands use left right Native.number Native.number
  | _ => invalidOperator use left

/-- What an operator without a left operand expects, when it steps nothing. -/
def unaryOperand? : Operator → Option Constraint
  | .not => some Native.boolean
  | .complement | .add | .subtract => some Native.number
  | _ => none

/-- Halts at something that cannot be assigned to. -/
def invalidAssignment {α : Type} (token : Nat) : Checker α := halt token .invalidAssignment []

/-- Halts at something that is no expression. -/
def invalidExpression {α : Type} (token : Nat) : Checker α := halt token .invalidExpression []

/-- The type of an assignment of a value to a target. -/
def assigned (use : OperatorUse) (target value : Constraint) (token : Nat) :
    Checker Constraint := do
  match use.operation.compound? with
  | none => checkAssignable value target token
  | some operation =>
    unless ← pure (operation == .add) <&&> isExactly target .string do
      checkAssignable (← binary ⟨operation, use.token⟩ target value) target token
  return target

/-- What array elements have in common: the first one's type, if all fit it. -/
def commonElement : List Constraint → Checker Constraint
  | [] => pure .dynamic
  | first :: rest => do
    if ← rest.allM (fits · first) then return first else return .dynamic

/-- The common type of the two branches of a conditional expression. -/
def commonBranch (left right : Constraint) : Checker Constraint := do
  if ← fits right left then return left
  else if ← fits left right then return right
  else return .dynamic

/-- The type of a literal that is no array. -/
def scalarLiteral : LiteralKind → String → Constraint
  | .string, _ => Native.string
  | .number, _ => Native.number
  | _, "true" | _, "false" => Native.boolean
  | _, "null" => Native.null
  | _, _ => .dynamic

end Checker
end Javascribe

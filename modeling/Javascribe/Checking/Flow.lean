/-
# Statements and the flow of control

The parts of checking statements that do not look into nested ones: what may
stand as a statement of its own, what `return` may give, and the names that
loops and cases bring in.

Key definitions: `Checker.standalone`, `Checker.returned`,
`Checker.bindElement`.
-/
import Javascribe.Checking.Name

namespace Javascribe

open Javascribe.Tree

/-- Whether a node does something when it stands on its own. -/
def Tree.Node.hasEffect : Node → Bool
  | .chain c =>
    match c.properties.getLast? with
    | some (.call _) => true
    | _ => false
  | .statement _ | .literal _ | .lambda _ | .reference _ | .ternary _ => false
  | _ => true

/-- Whether a statement may stand on its own: an assignment, a step, a call
and the like, but no bare value. -/
def Tree.Statement.isStandalone (statement : Statement) : Bool :=
  match statement.operation? with
  | some operation => operation.isAssignment || operation.isStep
  | none => statement.left.all (·.hasEffect)

/-- The bare name that a case of a switch is. -/
def Tree.Statement.caseName? (statement : Statement) : Option Reference :=
  match statement.left with
  | some (.reference r) => if statement.isSimple then some r else none
  | _ => none

/-- The variable that a statement declares. -/
def Tree.Statement.declaration? (statement : Statement) : Option Variable :=
  match statement.left with
  | some (.declaration d) => some d
  | _ => none

/-- Whether a chain can be assigned to: it must not be empty or end with a call. -/
def Tree.isAssignableChain (properties : List Property) : Bool :=
  match properties.getLast? with
  | some (.call _) | none => false
  | _ => true

namespace Checker

/-- Reports a statement that control cannot reach, once in a block. -/
def checkReachable (token : Nat) : Checker Unit := do
  let flags ← flags
  if flags.completion.leavesBlock && !flags.reportedUnreachable then
    report token .unreachableCode []
    modify fun context =>
      { context with flags := { context.flags with reportedUnreachable := true } }

/-- A statement that stands on its own, with the check of its value. -/
def standalone (statement : Statement) (value : Checker Constraint) : Checker Unit := do
  checkReachable statement.token
  attempt do
    check statement.isStandalone statement.token .invalidExpression []
    value

/-- A condition, with the check of its value. -/
def condition (token : Nat) (value : Checker Constraint) : Checker Unit := do
  checkAssignable (← value) Native.boolean token

/-- Whether a method that has to give `expected` may give a value or nothing. -/
def mayGive (expected : Constraint) : Option Constraint → Checker Bool
  | some value =>
    pure expected.isDynamic <||> (pure !(expected.isSimple .void) <&&> fits value expected)
  | none => pure (expected.isDynamic || expected.isSimple .void)

/-- A `return`, with the type of what it gives. -/
def returned (value : Option Constraint) (token : Nat) : Checker Unit := do
  if (← flags).inConstructor then
    check value.isNone token .constructorsCannotReturnValues []
  else
    let expected := (← get).expected.head?.getD Native.void
    unless ← mayGive expected value do
      report token .expectedReturnType [← typeName expected]

/-- Halts unless `return` may stand here. -/
def requireReturn (token : Nat) : Checker Unit := do
  require (← flags).mayReturn token .unexpectedReturn []

/-- How control leaves by an instruction. -/
def leaving : InstructionKind → Completion
  | .returns | .throws => .method
  | .continues | .breaks => .block

/-- What a loop over a value goes through. -/
def elements (iterable : Constraint) : Checker Constraint := do
  match (← resolve iterable).definition.element? with
  | some element => resolve element
  | none => return .dynamic

/-- Declares the variable of a loop over elements. -/
def bindElement (element : Constraint) (initialization : Option Statement) : Checker Unit := do
  if let some declaration := initialization.bind (·.declaration?) then
    let declared ← localOf declaration.name declaration.type declaration.isFinal
    checkAssignable element declared.constraint declaration.token
    declare declared

/-- A case that is a bare name, which may be a static member of the object
that is switched on. -/
def noteCase (object : Option Nat) (case : Reference) : Checker Unit := do
  if let some id := object then
    if let some member ← ask (·.member? id case.name) then
      if member.isStatic then qualify member case.token

/-- The object that a value to switch on is, if it could be checked. -/
def switchedObject (value : Option Constraint) : Checker (Option Nat) := do
  match value with
  | none => return none
  | some constraint => return (← resolve constraint).definition.object?

/-- Declares a caught exception. -/
def declareException (exception : Option Reference) : Checker Unit :=
  match exception with
  | some exception => declare (.dynamic exception.name)
  | none => pure ()

/-- Declares a parameter of a lambda. -/
def declareLambdaParameter : LambdaParameter → Checker Unit
  | .untyped r => declare (.dynamic r.name)
  | .typed d => do declare (← localOf d.name d.type false)

/-- A lambda, with the check of its body. -/
def lambda (parameters : List LambdaParameter) (body : Checker Unit) : Checker Constraint := do
  withFlags (·.enterLambda) <| expecting .dynamic <| withScope do
    parameters.forM declareLambdaParameter
    body
  return .dynamic

end Checker
end Javascribe

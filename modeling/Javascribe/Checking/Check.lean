/-
# Checking trees

Every construct is checked together with what stands inside it; an
expression gives its type. Classes declared in a block are not checked.

Key definitions: `Check.statement`, `Check.node`, `Check.block`,
`Check.classDecl`, `Check.interfaceDecl`.
-/
import Javascribe.Checking.Declaration

namespace Javascribe
namespace Check

open Javascribe.Tree Javascribe.Checker

mutual

/-- The type of a statement or expression. -/
def statement : Statement → Checker Constraint
  | ⟨left, none, _, _, cast, _, _⟩ => do
    match left with
    | none => return Native.void
    | some n => castToOption (← node n) cast
  | ⟨some target, some use, some value, _, _, _, _⟩ => do
    if use.operation.isAssignment then
      let value' ← statement value
      assigned use (← assignmentTarget true target) value' value.token
    else
      let left ← node target
      if use.operation == .instanceOf then return Native.boolean
      binary use left (← statement value)
  | ⟨some target, some use, none, _, _, _, token⟩ => do
    if use.operation.isAssignment then invalidAssignment token
    else if use.operation.isStep then
      expectOperand use (← assignmentTarget false target) Native.number
    else invalidExpression token
  | ⟨none, some use, some operand, _, _, _, token⟩ => do
    if use.operation.isAssignment then invalidAssignment token
    else if use.operation.isStep then
      expectOperand use (← simpleTarget false operand) Native.number
    else
      match unaryOperand? use.operation with
      | some expected => expectOperand use (← statement operand) expected
      | none => invalidExpression use.token
  | ⟨none, some use, none, _, _, _, token⟩ =>
    if use.operation.isAssignment then invalidAssignment token else invalidExpression token

/-- The type of what is assigned to; a declaration is declared first. -/
def assignmentTarget (isAssignment : Bool) : Node → Checker Constraint
  | .declaration d => declareVariable d (d.isFinal && isAssignment)
  | .reference r => assignedReference r
  | .chain ⟨properties, token⟩ => do
    unless isAssignableChain properties do invalidAssignment token
    let last ← chain token properties
    if let some member := last.member then requireMutable member token
    return last.constraint
  | .statement s => simpleTarget isAssignment s
  | n => invalidAssignment n.token

/-- The type of what is assigned to when it stands in brackets or after an operator. -/
def simpleTarget (isAssignment : Bool) : Statement → Checker Constraint
  | ⟨some target, none, none, _, none, _, _⟩ => assignmentTarget isAssignment target
  | s => invalidAssignment s.token

/-- The types of arguments or elements. -/
def statements : List Statement → Checker (List Constraint)
  | [] => return []
  | s :: ss => return (← statement s) :: (← statements ss)

/-- A statement that may be absent. -/
def optionStatement : Option Statement → Checker (Option Constraint)
  | none => return none
  | some s => return some (← statement s)

/-- The elements of an array, which have to fit `element`. -/
def elementsOf (element : Constraint) : List Statement → Checker Unit
  | [] => return
  | s :: ss => do
    checkAssignable (← statement s) element s.token
    elementsOf element ss

/-- The type of a node. -/
def node : Node → Checker Constraint
  | .statement s => statement s
  | .instruction ⟨kind, value, token⟩ => do
    complete (leaving kind)
    match kind with
    | .returns =>
      requireReturn token
      returned (← optionStatement value) token
    | .throws => discard (optionStatement value)
    | .continues | .breaks => pure ()
    return Native.void
  | .assertion ⟨test, message, _⟩ => do
    condition test.token (statement test)
    discard (optionStatement message)
    return Native.void
  | .literal ⟨.array, _, items, _⟩ => do return .arrayOf (← commonElement (← statements items))
  | .literal ⟨kind, value, _, _⟩ => return scalarLiteral kind value
  | .lambda ⟨parameters, body, _⟩ => lambda parameters (lambdaBody body)
  | .reference r => reference r
  | .call c => functionCall c
  | .instantiation i => instantiation i
  | .classDecl _ => return Native.void
  | .declaration d => declareVariable d false
  | .ifElse ⟨tests, branches, _⟩ => do
    conditions tests
    let completion ← blocks branches
    if tests.length < branches.length then complete completion
    return Native.void
  | .forLoop ⟨initialization, test, increment, iterable, isEnhanced, body, _⟩ => do
    withScope do
      if isEnhanced then
        attempt do
          let element ← match ← optionStatement iterable with
            | some iterable => elements iterable
            | none => pure .dynamic
          bindElement element initialization
      else
        attempt (optionStatement initialization)
        attempt (optionCondition test)
        attempt (optionStatement increment)
      discard (block body)
    return Native.void
  | .whileLoop ⟨test, body, _⟩ => do
    attempt (condition test.token (statement test))
    discard (block body)
    return Native.void
  | .doWhileLoop ⟨body, test, _⟩ => do
    discard (block body)
    attempt (condition test.token (statement test))
    return Native.void
  | .switch ⟨value, cases, bodies, default, _⟩ => do
    let object ← switchedObject (← recover (statement value))
    switchCases object cases
    let leaves ← switchBlocks bodies
    let defaultLeaves ← defaultBlock default
    if leaves && defaultLeaves then complete .method
    return Native.void
  | .tryCatch ⟨body, _, names, clauses, finallyBlock, _⟩ => do
    let completion := (← block body).both (← catchBlocks names clauses)
    complete (completion.either (← optionBlock finallyBlock))
    return Native.void
  | .chain ⟨properties, token⟩ => return (← chain token properties).constraint
  | .ternary ⟨test, left, right, _⟩ => do
    condition test.token (statement test)
    let left ← statement left
    commonBranch left (← statement right)

/-- A condition that may be absent. -/
def optionCondition : Option Statement → Checker Unit
  | none => return
  | some s => condition s.token (statement s)

/-- The body of a lambda. -/
def lambdaBody : LambdaBody → Checker Unit
  | .block b => discard (block b)
  | .statement s => attempt (statement s)

/-- A call at the start of an expression. -/
def functionCall : Call → Checker Constraint
  | ⟨name, _, arguments, token⟩ => do
    let arguments ← statements arguments
    match name with
    | some name => call name arguments token
    | none => invalidExpression token

/-- What a chain gives. -/
def chain (token : Nat) : List Property → Checker Link
  | [] => invalidExpression token
  | .reference r :: properties => do
    let (constraint, taken) ← leadingName r (r.name :: leadingNames properties)
    links (taken - 1) ⟨constraint, none⟩ properties
  | .call c :: properties => do links 0 ⟨← functionCall c, none⟩ properties
  | .head n :: properties => do links 0 ⟨← node n, none⟩ properties
  | .type t :: properties => do links 0 ⟨← typeOf t, none⟩ properties
  | .index s :: _ => invalidExpression s.token

/-- What a chain gives after more links, the first `taken` of which belong to
what it gives so far. -/
def links (taken : Nat) (link : Link) : List Property → Checker Link
  | [] => return link
  | p :: properties => do
    match taken with
    | rest + 1 => links rest link properties
    | 0 =>
      if (← resolve link.constraint).isDynamic then
        dynamicProperty p
        links 0 ⟨link.constraint, none⟩ properties
      else
        let next ← property link.constraint p
        links 0 next properties

/-- A link after a value of a known type. -/
def property (receiver : Constraint) : Property → Checker Link
  | .reference r => memberOf receiver r.name r.token
  | .call ⟨name, _, arguments, token⟩ => do
    return ⟨← callLink receiver name (← statements arguments) token, none⟩
  | .index s => return ⟨← elementOf receiver (← statement s) s.token, none⟩
  | .type t => return ⟨← typeOf t, none⟩
  | .head n => return ⟨← node n, none⟩

/-- A link after a value that can be anything: only what stands inside it is checked. -/
def dynamicProperty : Property → Checker Unit
  | .call ⟨_, _, arguments, _⟩ => discard (statements arguments)
  | .index s => discard (statement s)
  | .reference _ | .type _ | .head _ => return

/-- A block in a scope of its own, and how control leaves it. -/
def block : Block → Checker Completion
  | ⟨ss, _⟩ => inBlock (lines ss)

/-- The statements of a block. -/
def lines : List Statement → Checker Unit
  | [] => return
  | s :: ss => do
    unless s.isEmpty do standalone s (statement s)
    lines ss

/-- Blocks one after the other, and how control leaves all of them. -/
def blocks : List Block → Checker Completion
  | [] => return .method
  | b :: bs => return (← block b).both (← blocks bs)

/-- A block that may be absent. -/
def optionBlock : Option Block → Checker Completion
  | none => return .normal
  | some b => block b

/-- Conditions, each checked whatever is wrong with the others. -/
def conditions : List Statement → Checker Unit
  | [] => return
  | s :: ss => do
    attempt (condition s.token (statement s))
    conditions ss

/-- The cases of a switch. -/
def switchCases (object : Option Nat) : List Statement → Checker Unit
  | [] => return
  | s :: ss => do
    match s.caseName? with
    | some name => noteCase object name
    | none => attempt (statement s)
    switchCases object ss

/-- The blocks of cases: whether control leaves the method by all that are not empty. -/
def switchBlocks : List Block → Checker Bool
  | [] => return true
  | b :: bs => do
    let completion ← block b
    return (b.isEmpty || completion.leavesMethod) && (← switchBlocks bs)

/-- The default block of a switch: whether there is one by which control leaves the method. -/
def defaultBlock : Option Block → Checker Bool
  | none => return false
  | some b => return (← block b).leavesMethod && !b.isEmpty

/-- The blocks of catch clauses, each with the name of its exception. -/
def catchBlocks (names : List Reference) : List Block → Checker Completion
  | [] => return .method
  | b :: bs => do
    let completion ← withScope do
      declareException names.head?
      block b
    return completion.both (← catchBlocks names.tail bs)

/-- An instantiation. -/
def instantiation : Instantiation → Checker Constraint
  | ⟨type, arguments, size, literal, body, token⟩ => do
    let constructed ← typeOf type
    match size, literal with
    | some size, _ =>
      checkAssignable (← statement size) Native.number size.token
      return .arrayOf constructed
    | none, some ⟨_, _, items, _⟩ =>
      elementsOf (← elements constructed) items
      return constructed
    | none, none =>
      let arguments ← statements arguments
      match constructed.definition.object? with
      | none =>
        optionBody none type.name body
        return constructed
      | some id =>
        construct id body.isSome arguments token
        optionBody (some id) (← objectName id) body
        return .object id

/-- The body of an anonymous object, whose members are those of `base`. -/
def optionBody (base : Option Nat) (name : String) : Option ObjectBody → Checker Unit
  | none => return
  | some ⟨_, ms, initializerBlocks, _⟩ =>
    visitingOption base do
      members ⟨name, false, false⟩ ms
      initializers false initializerBlocks

/-- A class. -/
def classDecl : ClassDecl → Checker Unit
  | ⟨modifiers, name, typeParameters, extended, implemented, constructors, ms,
      instanceInitializers, staticInitializers, _, _, token⟩ => do
    if let some id ← declaredObject? name then
      withinObject id name typeParameters do
        checkSupertypes name extended implemented
        unless modifiers.isAbstract do checkImplemented name token id
        let owner : Owner := ⟨name, modifiers.isAbstract, false⟩
        methods owner constructors
        members owner ms
        initializers false instanceInitializers
        initializers true staticInitializers

/-- An interface. -/
def interfaceDecl : InterfaceDecl → Checker Unit
  | ⟨_, name, typeParameters, _, ms, _, _⟩ => do
    if let some id ← declaredObject? name then
      withinObject id name typeParameters (members ⟨name, true, true⟩ ms)

/-- The members of an object. -/
def members (owner : Owner) : List Member → Checker Unit
  | [] => return
  | m :: ms => do
    member owner m
    members owner ms

/-- A member of an object. -/
def member (owner : Owner) : Member → Checker Unit
  | .field f => attempt (field owner f)
  | .method m => method owner m
  | .classDecl c => classDecl c
  | .interfaceDecl i => interfaceDecl i

/-- Methods. -/
def methods (owner : Owner) : List Method → Checker Unit
  | [] => return
  | m :: ms => do
    method owner m
    methods owner ms

/-- A method or constructor. -/
def method (owner : Owner) : Method → Checker Unit
  | ⟨modifiers, typeParameters, type, name, parameters, throws, body, annotations, isConstructor,
      token⟩ => do
    let declared : Method := ⟨modifiers, typeParameters, type, name, parameters, throws, body,
      annotations, isConstructor, token⟩
    checkHeader owner declared
    match body with
    | none => return
    | some b => methodBody owner declared b (block b)

/-- A field. -/
def field (owner : Owner) : Field → Checker Unit
  | ⟨modifiers, type, name, value, annotations, token⟩ => do
    let declared : Field := ⟨modifiers, type, name, value, annotations, token⟩
    checkAbstractField owner declared
    match value with
    | none => return
    | some s => fieldValue owner declared s.token (statement s)

/-- Initializer blocks. -/
def initializers (isStatic : Bool) : List Block → Checker Unit
  | [] => return
  | b :: bs => do
    initializer isStatic (block b)
    initializers isStatic bs

end

end Check
end Javascribe

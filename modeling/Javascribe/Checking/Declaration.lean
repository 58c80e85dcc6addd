/-
# Declarations

The parts of checking classes, methods and fields that do not look into
their bodies: supertypes, members that have to be implemented, and where
modifiers may stand.

Key definitions: `Owner`, `Checker.checkSupertypes`,
`Checker.checkImplemented`, `Checker.methodBody`.
-/
import Javascribe.Checking.Flow

namespace Javascribe

open Javascribe.Tree

/-- The object whose members are checked. -/
structure Owner where
  name : String
  isAbstract : Bool
  isInterface : Bool

/-- Members of which no two have the same name, the first ones kept. -/
def distinctMembers : List (Nat × ObjectMember) → List (Nat × ObjectMember) :=
  List.eraseDupsBy fun a b => a.2.name == b.2.name

/-- The inherited members of an object that need an implementation, with the
object that declares them. -/
def Dictionary.inheritedAbstract (dictionary : Dictionary) (id : Nat) :
    List (Nat × ObjectMember) :=
  distinctMembers <| (dictionary.allSupertypes id).flatMap fun supertype =>
    ((dictionary.object supertype).ownMembers.filter (·.isAbstract)).map (supertype, ·)

/-- Whether an object has an implementation of a member. -/
def Dictionary.implements (dictionary : Dictionary) (id : Nat) (name : String) : Bool :=
  (dictionary.member? id name).any (!·.isAbstract)

namespace Checker

/-! ### Classes -/

/-- Reports an extended type that is not a class or is final. -/
def checkExtended (name : String) (type : TypeRef) : Checker Unit := do
  let supertype ← typeOf type
  unless supertype.isDynamic do
    let parent ← ask fun dictionary => supertype.definition.object?.map dictionary.object
    match parent.filter (·.isClass) with
    | some parent =>
      check parent.isExtensible type.token .classCannotBeExtended [parent.name, name]
    | none => report type.token .classCannotExtendNonClass [name, type.text]

/-- Reports an implemented type that is not an interface. -/
def checkInterface (name : String) (type : TypeRef) : Checker Unit := do
  let supertype ← typeOf type
  unless supertype.isDynamic do
    let parent ← ask fun dictionary => supertype.definition.object?.map dictionary.object
    check (parent.any (·.isInterface)) type.token .classCannotImplementNonInterface
      [name, type.text]

/-- Reports supertypes that a class cannot have. -/
def checkSupertypes (name : String) (extended implemented : List TypeRef) : Checker Unit := do
  extended.forM (checkExtended name)
  implemented.forM (checkInterface name)

/-- Reports inherited members without an implementation. -/
def checkImplemented (name : String) (token id : Nat) : Checker Unit := do
  (← ask (·.inheritedAbstract id)).forM fun (parent, member) => do
    unless ← ask (·.implements id member.name) do
      report token .classMustImplementAbstractMember
        [name, s!"{← objectName parent}.{← declaredName member}"]

/-! ### Methods -/

/-- Reports a constructor with a wrong name, and a block that is missing or
should be. -/
def checkHeader (owner : Owner) (method : Method) : Checker Unit := do
  let token := method.token
  let name := method.name
  if method.isConstructor then
    check (name == owner.name) token .constructorNameMismatch [name, owner.name]
  if owner.isInterface then
    check (!method.modifiers.isAbstract) token .interfaceMethodCannotBeAbstract [name]
  else if method.modifiers.isAbstract then
    check owner.isAbstract token .abstractMethodOutsideAbstractClass []
    check method.block.isNone token .abstractMethodCannotHaveImplementation [name]
  else
    check method.block.isSome token .methodMustHaveImplementation [name]

/-- Reports the `return`s without a value that stand in a constructor's own block. -/
def checkConstructorReturns (block : Block) : Checker Unit :=
  block.statements.forM fun statement =>
    match statement.left with
    | some (.instruction ⟨.returns, none, token⟩) =>
      report token .constructorTopLevelReturn []
    | _ => pure ()

/-- A parameter as a local name. -/
def parameter (parameter : Variable) : Checker Local := do
  let declared ← localOf parameter.name parameter.type parameter.isFinal
  return if parameter.isVariadic then declared.asArray else declared

/-- What a method has to give. -/
def resultType (method : Method) : Checker Constraint :=
  match method.type with
  | some type => if method.isConstructor then pure Native.void else typeOf type
  | none => pure Native.void

/-- The flags at the start of a method. -/
def methodFlags (method : Method) : Flags :=
  { mayReturn := true
    allowsInstance := !method.modifiers.isStatic
    inConstructor := method.isConstructor }

/-- A method with a block, with the check of that block. -/
def methodBody (owner : Owner) (method : Method) (block : Block) (body : Checker Completion) :
    Checker Unit := do
  let (result, completion) ← withGenerics (method.typeParameters.map TypeRef.name) do
    let result ← resultType method
    if method.isConstructor then checkConstructorReturns block
    let parameters ← method.parameters.mapM parameter
    let completion ← withFlags (fun _ => methodFlags method) <| expecting result <| withScope do
      parameters.forM declare
      body
    return (result, completion)
  unless result.isSimple .void || completion.leavesMethod do
    report method.token .methodMustReturnValue
      [s!"{owner.name}.{method.name}", ← typeName result]

/-! ### Fields and initializers -/

/-- Reports an abstract field outside an abstract class or with a value. -/
def checkAbstractField (owner : Owner) (field : Field) : Checker Unit := do
  if field.modifiers.isAbstract then
    check (owner.isAbstract && !owner.isInterface) field.token
      .abstractFieldOutsideAbstractClass []
    check field.value.isNone field.token .abstractFieldCannotHaveValue []

/-- A field with a value, with the check of that value. -/
def fieldValue (owner : Owner) (field : Field) (token : Nat) (value : Checker Constraint) :
    Checker Unit := do
  let declared ← typeOf field.type
  let isStatic := field.modifiers.isStatic || owner.isInterface
  checkAssignable (← withFlags (fun _ => { allowsInstance := !isStatic }) value) declared token

/-- An initializer, with the check of its block. -/
def initializer (isStatic : Bool) (body : Checker Completion) : Checker Unit :=
  discard (withFlags (fun _ => { allowsInstance := !isStatic }) body)

/-! ### Imports -/

/-- Halts at an import of a name that no type can have. -/
def checkImport (item : Import) : Checker Unit :=
  (item.default.toList ++ item.group).forM fun name =>
    require ((name.toList.head?).any (·.isUpper)) item.token .invalidImportName [name]

end Checker
end Javascribe

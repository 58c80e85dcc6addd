/-
# Names, members and calls

What a name means: a local name, a member of an enclosing object, a type, or
something imported. Members are subject to access, and instance members need
an instance. Where the output has to write a name in another way, that is
noted in the resolutions.

Key definitions: `Checker.reference`, `Checker.call`, `Checker.memberOf`,
`Checker.methodOf`, `Checker.leadingName`.
-/
import Javascribe.Checking.Expression

namespace Javascribe
namespace Checker

open Javascribe.Tree

/-! ### Members -/

/-- The name a member was declared with. -/
def declaredName (member : ObjectMember) : Checker String :=
  match member.constraint.definition with
  | .function id => ask fun dictionary => (dictionary.function id).name
  | _ => pure member.name

/-- The name of an object. -/
def objectName (id : Nat) : Checker String := ask fun dictionary => (dictionary.object id).name

/-- The member that a bare name means: of the innermost enclosing object that has it. -/
def visibleMember? (name : String) : Checker (Option ObjectMember) := do
  let objects := (← get).objects
  ask fun dictionary => objects.findSome? (dictionary.member? · name)

/-- Halts when a member cannot be used here. -/
def requireReach (member : ObjectMember) (token : Nat) : Checker Unit := do
  let objects := (← get).objects
  match ← ask (·.reach objects member) with
  | .allowed => pure ()
  | .privateMember =>
    halt token .privateMemberAccess [← declaredName member, ← objectName member.parent]
  | .protectedMember =>
    halt token .protectedMemberAccess [← declaredName member, ← objectName member.parent]

/-- Halts when an instance member is used without an instance. -/
def requireStatic (member : ObjectMember) (token : Nat) : Checker Unit := do
  let owner ← objectName member.parent
  require member.isStatic token .instanceMemberOnStaticClass
    [s!"{owner}.{← declaredName member}", owner]

/-- Notes what a bare member name has to be qualified with. -/
def qualify (member : ObjectMember) (token : Nat) : Checker Unit := do
  let qualifier ← if member.isStatic then objectName member.parent else pure "this"
  resolution (·.addQualifier token qualifier)

/-- Notes the stored name of a method, when it differs from the written one. -/
def noteCallName (written stored : String) (token : Nat) : Checker Unit :=
  if stored == written then pure () else resolution (·.addCallName token stored)

/-- Halts when a constant member is assigned. Constructors may set the
constants of their own object. -/
def requireMutable (member : ObjectMember) (token : Nat) : Checker Unit := do
  let isInitializing := (← flags).inConstructor && (← get).objects.head? == some member.parent
  require (!member.isConstant || isInitializing) token .cannotReassignFinalMember
    [s!"{← objectName member.parent}.{member.name}"]

/-! ### Names -/

/-- Whether a name is brought in by a static import. -/
def isStaticallyImported (name : String) : Checker Bool := do
  let env ← read
  return env.hasStaticWildcard || env.staticImports.contains name

/-- The type or global that a chain of names means. -/
def global? (names : List String) : Checker (Option Constraint) := do
  let env ← read
  let candidates := env.space.candidates (← get).enclosing names
  return (env.dictionary.lookupFirst? candidates).map fun symbol =>
    env.dictionary.resolve symbol.constraint

/-- Reports an unknown name. -/
def unknownIdentifier (name : String) (token : Nat) : Checker Constraint := do
  report token .unknownIdentifier [name]
  return .dynamic

/-- The class that an object extends. `none` says that it has no supertype,
`some none` that the supertype is not known. -/
def parentClass? (id : Nat) : Checker (Option (Option Nat)) := ask fun dictionary =>
  let object := dictionary.object id
  let parent := object.supertypes.findSome? fun supertype =>
    match (dictionary.resolve supertype).definition.object? with
    | some parent => if (dictionary.object parent).isClass then some (some parent) else none
    | none => some none
  match parent with
  | some parent => some parent
  | none => if object.isInterface && !object.supertypes.isEmpty then some none else none

/-- `this` -/
def thisReference (token : Nat) : Checker Constraint := do
  let isAllowed := (← flags).allowsInstance
  check isAllowed token .thisInStaticContext []
  match (← get).objects.head? with
  | some id => if isAllowed then return .object id else return .dynamic
  | none => return .dynamic

/-- `super` -/
def superReference (token : Nat) : Checker Constraint := do
  match (← get).objects.head? with
  | none => return .dynamic
  | some current =>
    match ← parentClass? current with
    | some (some parent) => return .object parent
    | some none => return .dynamic
    | none =>
      report token .noSupertypes [← objectName current]
      return .dynamic

/-- A bare name that means a member. -/
def memberReference (member : ObjectMember) (token : Nat) : Checker Constraint := do
  unless (← flags).allowsInstance do requireStatic member token
  requireReach member token
  qualify member token
  resolve member.constraint

/-- A name that is neither local nor a member. -/
def globalReference (name : String) (token : Nat) : Checker Constraint := do
  match ← global? [name] with
  | some constraint => return constraint
  | none =>
    if ← isStaticallyImported name then return .dynamic
    else unknownIdentifier name token

/-- A bare name. -/
def reference : Reference → Checker Constraint
  | ⟨"this", token⟩ => thisReference token
  | ⟨"super", token⟩ => superReference token
  | ⟨name, token⟩ => do
    match ← local? name with
    | some declared => return declared.constraint
    | none =>
      match ← visibleMember? name with
      | some member => memberReference member token
      | none => globalReference name token

/-- A bare name that is assigned to. -/
def assignedReference (target : Reference) : Checker Constraint := do
  match ← local? target.name with
  | some declared =>
    require (!declared.isConstant) target.token .cannotReassignFinalValue [target.name]
    return declared.constraint
  | none =>
    if let some member ← visibleMember? target.name then requireMutable member target.token
    reference target

/-! ### Calls -/

/-- The names of argument types in messages. -/
def argumentNames (arguments : List Constraint) : Checker String := do
  let names ← arguments.mapM typeName
  return ", ".intercalate (names.map fun name => s!"'{name}'")

/-- Halts at a call whose arguments do not fit. -/
def invalidArguments {α : Type} (name : String) (arguments : List Constraint) (token : Nat) :
    Checker α := do
  halt token .invalidFunctionArguments [name, ← argumentNames arguments]

/-- Halts at a call of something that cannot be called. -/
def notFunction {α : Type} (name : String) (token : Nat) : Checker α :=
  halt token .notAFunction [name]

/-- The call of a value. -/
def callValue (callee : Constraint) (name : String) (arguments : List Constraint) (token : Nat) :
    Checker Constraint := do
  let callee ← resolve callee
  if callee.isDynamic then return .dynamic
  match callee.definition.function? with
  | none => notFunction name token
  | some id =>
    let function ← ask (·.function id)
    if ← ask (·.accepts function arguments) then resolve function.result
    else invalidArguments name arguments token

/-- Halts unless constructor arguments fit. -/
def requireConstructor (condition : Bool) (arguments : List Constraint) (token : Nat) :
    Checker Unit := do
  unless condition do halt token .invalidConstructorArguments [← argumentNames arguments]

/-- The call of a constructor of `target` at the start of another one. -/
def delegate (target : Nat) (token : Nat) (arguments : List Constraint) : Checker Unit := do
  let object ← ask (·.object target)
  let index ← ask (·.constructor? target arguments)
  requireConstructor (if object.hasConstructors then index.isSome else arguments.isEmpty)
    arguments token
  if let some index := index then
    resolution (·.addCallName token (overloadName object.name index))

/-- `this(…)` or `super(…)` in a constructor. -/
def constructorCall (isThis : Bool) (token : Nat) (arguments : List Constraint) :
    Checker Unit := do
  match (← get).objects.head? with
  | none => pure ()
  | some current =>
    if isThis then delegate current token arguments
    else
      match ← parentClass? current with
      | some (some parent) => delegate parent token arguments
      | some none => pure ()
      | none =>
        require arguments.isEmpty token .noSupertypes [← objectName current]

/-- The call of a method that a bare name means. -/
def memberCall (name : String) (method : MethodMatch) (token : Nat) : Checker Constraint := do
  unless (← flags).allowsInstance do
    require method.member.isStatic token .instanceMethodInStaticContext []
  requireReach method.member token
  qualify method.member token
  noteCallName name method.name token
  resolve method.result

/-- The call of a name that is neither local nor a method of an enclosing object. -/
def globalCall (name : String) (arguments : List Constraint) (token : Nat) :
    Checker Constraint := do
  if ← isStaticallyImported name then return .dynamic
  match ← global? [name] with
  | some constraint => callValue constraint name arguments token
  | none => unknownIdentifier name token

/-- The call of a method of the first of `objects` that has one of that name. -/
def enclosingCall (name : String) (arguments : List Constraint) (token : Nat) :
    List Nat → Checker Constraint
  | [] => globalCall name arguments token
  | id :: objects => do
    match ← ask (·.method id name arguments) with
    | .found method => memberCall name method token
    | .invalidArguments => invalidArguments name arguments token
    | .notFunction _ => notFunction name token
    | .missing => enclosingCall name arguments token objects

/-- The call of a bare name. -/
def call (name : String) (arguments : List Constraint) (token : Nat) : Checker Constraint := do
  if name == "this" || name == "super" then
    constructorCall (name == "this") token arguments
    return Native.void
  match ← local? name with
  | some declared => callValue declared.constraint name arguments token
  | none => enclosingCall name arguments token (← get).objects

/-! ### Chains -/

/-- What a chain gives so far, and the member it was last read from. -/
structure Link where
  constraint : Constraint
  member : Option ObjectMember := none

/-- The names at the start of a chain. -/
def leadingNames : List Property → List String
  | .reference r :: properties => r.name :: leadingNames properties
  | _ => []

/-- The longest of the chains of names, at most `length` long, that means a
type or global, and how long it is. -/
def longestGlobal? (names : List String) : Nat → Checker (Option (Constraint × Nat))
  | 0 => pure none
  | length + 1 => do
    match ← global? (names.take (length + 1)) with
    | some constraint => return some (constraint, length + 1)
    | none => longestGlobal? names length

/-- Whether a name means a value here. -/
def isValueName (name : String) : Checker Bool := do
  if name == "this" || name == "super" then return true
  return (← local? name).isSome || (← visibleMember? name).isSome

/-- The first link of a chain that starts with a name, and how many names it
takes. Names that mean no value are taken as the name of a type. -/
def leadingName (first : Reference) (names : List String) : Checker (Constraint × Nat) := do
  if ← isValueName first.name then return (← reference first, 1)
  match ← longestGlobal? names names.length with
  | some found => return found
  | none =>
    if ← isStaticallyImported first.name then return (.dynamic, 1)
    else return (← unknownIdentifier first.name first.token, 1)

/-- Halts at a member that is not there. -/
def memberNotFound {α : Type} (receiver : Constraint) (name : String) (token : Nat) :
    Checker α := do
  halt token .memberNotFound [name, ← typeName receiver]

/-- The object whose members a value has. -/
def receiverObject (receiver : Constraint) (name : String) (token : Nat) : Checker Nat := do
  let object? := match receiver.definition with
    | .object id => some id
    | .simple type => Native.boxed? type
    | _ => none
  match receiver.definition, object? with
  | .array _ _, _ => memberNotFound receiver name token
  | _, some id => return id
  | _, none => halt token .typeHasNoProperties [← typeName receiver]

/-- The member `name` of a value. -/
def memberOf (receiver : Constraint) (name : String) (token : Nat) : Checker Link := do
  let receiver ← resolve receiver
  if receiver.definition.element?.isSome && name == "length" then return ⟨Native.number, none⟩
  let object ← receiverObject receiver name token
  match ← ask (·.member? object name) with
  | none => memberNotFound receiver name token
  | some member =>
    requireReach member token
    if receiver.isDefinition then requireStatic member token
    return ⟨← resolve member.constraint, some member⟩

/-- The call of the method `name` of a value. -/
def methodOf (receiver : Constraint) (name : String) (arguments : List Constraint)
    (token : Nat) : Checker Constraint := do
  let receiver ← resolve receiver
  let object ← receiverObject receiver name token
  match ← ask (·.method object name arguments) with
  | .found method =>
    requireReach method.member token
    if receiver.isDefinition then requireStatic method.member token
    noteCallName name method.name token
    resolve method.result
  | .invalidArguments => invalidArguments name arguments token
  | .notFunction _ => notFunction name token
  | .missing => memberNotFound receiver name token

/-- A call later in a chain. -/
def callLink (receiver : Constraint) (name : Option String) (arguments : List Constraint)
    (token : Nat) : Checker Constraint :=
  match name with
  | some name => methodOf receiver name arguments token
  | none => callValue receiver "<anonymous>" arguments token

/-- An element of an array. -/
def elementOf (receiver index : Constraint) (token : Nat) : Checker Constraint := do
  unless ← fits index Native.number do
    halt token .invalidArrayIndexType [← typeName index]
  match (← resolve receiver).definition.element? with
  | some element => resolve element
  | none => invalidExpression token

/-! ### Instances -/

/-- Halts unless an instance of an object can be made with arguments, and
notes which constructor makes it. -/
def construct (id : Nat) (isAnonymous : Bool) (arguments : List Constraint) (token : Nat) :
    Checker Unit := do
  let object ← ask (·.object id)
  let isOwn := (← get).objects.contains id && !object.isAbstract
  require (object.isConstructable || isAnonymous || isOwn) token .notConstructable [object.name]
  let index ← ask (·.constructor? id arguments)
  requireConstructor (if object.hasConstructors then index.isSome else arguments.isEmpty)
    arguments token
  if let some index := index then resolution (·.addConstructor token index)

end Checker
end Javascribe

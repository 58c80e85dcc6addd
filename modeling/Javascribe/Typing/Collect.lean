/-
# Collecting declarations

The types declared in a file go into a dictionary: an object type for each
class and interface, nested ones included. The types they mention are kept
as references, so a declaration may come before what it needs.

Key definitions: `FileNamespace.constraint`, `storedMethodNames`,
`collectDeclarations`.
-/
import Javascribe.Typing.Namespace
import Javascribe.Typing.Native

namespace Javascribe

/-- An array with a number of dimensions. -/
def Constraint.arrayWith (element : Constraint) : Nat → Constraint
  | 0 => element
  | dimensions + 1 => .arrayOf (arrayWith element dimensions)

/-- What a type means that is written inside the types `enclosing`, where the
type parameters `generics` can be anything. -/
def FileNamespace.constraint (space : FileNamespace) (enclosing generics : List String)
    (type : TypeRef) : Constraint :=
  let reference := Constraint.unresolved (space.candidates enclosing type.names)
  let base :=
    if type.isQualified then reference
    else if generics.contains type.name then .dynamic
    else (Native.type? type.name).getD reference
  base.arrayWith type.dimensions

/-- The names under which methods called `names` are stored when added in
order; `earlier` are the names before them. -/
def storedNamesFrom (all earlier : List String) : List String → List String
  | [] => []
  | name :: names =>
    let stored := if all.count name < 2 then name else overloadName name (earlier.count name)
    stored :: storedNamesFrom all (name :: earlier) names

/-- The names under which methods are stored, in order. -/
def storedMethodNames (methods : List Tree.Method) : List String :=
  let names := methods.map (·.name)
  storedNamesFrom names [] names

/-- The dictionary being filled, and the symbols defined so far. -/
structure Collection where
  dictionary : Dictionary
  defined : List Symbol

/-- Steps of collecting. -/
abbrev Collector := StateM Collection

/-- Where declarations are being collected. -/
structure CollectScope where
  space : FileNamespace
  enclosing : List String
  generics : List String

namespace CollectScope

/-- What a type means here. -/
def constraint (scope : CollectScope) (type : TypeRef) : Constraint :=
  scope.space.constraint scope.enclosing scope.generics type

/-- Inside a type with its parameters. -/
def inside (scope : CollectScope) (name : String) (typeParameters : List String) : CollectScope :=
  { scope with
    enclosing := scope.enclosing ++ [name]
    generics := scope.generics ++ typeParameters }

/-- What a parameter means; a variadic one is an array. -/
def parameter (scope : CollectScope) (parameter : Tree.Variable) : Constraint :=
  let constraint := scope.constraint parameter.type
  if parameter.isVariadic then .arrayOf constraint else constraint

/-- The function of a method or constructor that gives a `result`. -/
def functionType (scope : CollectScope) (method : Tree.Method) (result : Constraint) :
    FunctionType where
  name := method.name
  typeParameters := method.typeParameters.map TypeRef.name
  parameters := method.parameters.map scope.parameter
  result := result
  isVariadic := method.parameters.getLast?.any (·.isVariadic)

/-- The function of a method. -/
def methodType (scope : CollectScope) (method : Tree.Method) : FunctionType :=
  let scope := { scope with
    generics := scope.generics ++ method.typeParameters.map TypeRef.name }
  scope.functionType method ((method.type.map scope.constraint).getD Native.void)

end CollectScope

namespace Collector

/-- Adds an object type under its name. -/
def define (scope : CollectScope) (object : ObjectType) : Collector Nat :=
  modifyGet fun collection =>
    let (dictionary, id) := collection.dictionary.addObject object
    let identifier := scope.space.identifier scope.enclosing object.name
    let symbol : Symbol := ⟨identifier, object.name, .objectType id⟩
    (id, ⟨dictionary.addSymbol symbol, collection.defined ++ [symbol]⟩)

/-- Adds a function. -/
def addFunction (function : FunctionType) : Collector Nat :=
  modifyGet fun collection =>
    let (dictionary, id) := collection.dictionary.addFunction function
    (id, { collection with dictionary := dictionary })

/-- Changes an object type. -/
def modifyObject (id : Nat) (change : ObjectType → ObjectType) : Collector Unit :=
  modify fun collection =>
    { collection with dictionary := collection.dictionary.modifyObject id change }

/-- Adds the supertypes of an object. -/
def addSupertypes (scope : CollectScope) (id : Nat) (types : List TypeRef) : Collector Unit :=
  types.forM fun type => modifyObject id (·.addSupertype (scope.constraint type))

/-- Adds the constructors of an object. -/
def addConstructors (scope : CollectScope) (id : Nat) (constructors : List Tree.Method) :
    Collector Unit :=
  constructors.forM fun method => do
    let function ← addFunction (scope.functionType method (.object id))
    modifyObject id (·.addConstructor function)

/-- Adds a field. The fields of an interface are static constants. -/
def addField (scope : CollectScope) (id : Nat) (inInterface : Bool) (field : Tree.Field) :
    Collector Unit :=
  let member : ObjectMember :=
    { name := field.name, constraint := scope.constraint field.type, parent := id }
  let member := member.withModifiers field.modifiers
  modifyObject id (·.addMember
    { member with
      isStatic := member.isStatic || inInterface
      isConstant := member.isConstant || inInterface })

/-- Adds a method. One without a block in an interface is abstract. -/
def addMethod (scope : CollectScope) (id : Nat) (inInterface : Bool) (method : Tree.Method) :
    Collector Unit := do
  let function ← addFunction (scope.methodType method)
  let member : ObjectMember :=
    { name := method.name, constraint := .function function, parent := id }
  let member := member.withModifiers method.modifiers
  let isAbstract := method.modifiers.isAbstract || (inInterface && method.block.isNone)
  modifyObject id fun object => (object.addMethod { member with isAbstract := isAbstract }).1

/-- Adds a nested type as a static constant. -/
def addNested (id : Nat) (name : String) (modifiers : Modifiers) (nested : Nat) :
    Collector Unit :=
  modifyObject id (·.addMember
    { name := name
      constraint := .objectType nested
      visibility := .ofAccess modifiers.access
      isStatic := true
      isConstant := true
      parent := id })

/-- The object type of a class without its members. -/
def classObject (name : String) (modifiers : Modifiers) (typeParameters : List String)
    (isEnum : Bool) : ObjectType :=
  { ObjectType.new name .classType with
    isExtensible := !modifiers.isFinal && !isEnum
    isAbstract := modifiers.isAbstract
    isConstructable := !modifiers.isAbstract && !isEnum
    typeParameters := typeParameters }

mutual

/-- Adds a class with its members, and gives its number. -/
def collectClass (scope : CollectScope) : Tree.ClassDecl → Collector Nat
  | ⟨modifiers, name, typeParameters, extended, implemented, constructors, members, _, _, _,
      isEnum, _⟩ => do
    let id ← define scope (classObject name modifiers typeParameters isEnum)
    let scope := scope.inside name typeParameters
    addSupertypes scope id (extended ++ implemented)
    addConstructors scope id constructors
    collectMembers scope id false members
    return id

/-- Adds an interface with its members, and gives its number. -/
def collectInterface (scope : CollectScope) : Tree.InterfaceDecl → Collector Nat
  | ⟨_, name, typeParameters, extended, members, _, _⟩ => do
    let id ← define scope
      { ObjectType.new name .interfaceType with typeParameters := typeParameters }
    let scope := scope.inside name typeParameters
    addSupertypes scope id extended
    collectMembers scope id true members
    return id

/-- Adds the members of an object. -/
def collectMembers (scope : CollectScope) (id : Nat) (inInterface : Bool) :
    List Tree.Member → Collector Unit
  | [] => pure ()
  | member :: members => do
    collectMember scope id inInterface member
    collectMembers scope id inInterface members

/-- Adds one member of an object. -/
def collectMember (scope : CollectScope) (id : Nat) (inInterface : Bool) :
    Tree.Member → Collector Unit
  | .field f => addField scope id inInterface f
  | .method m => addMethod scope id inInterface m
  | .classDecl c => do addNested id c.name c.modifiers (← collectClass scope c)
  | .interfaceDecl i => do addNested id i.name i.modifiers (← collectInterface scope i)

end

/-- Adds what stands at the top of a file. -/
def collectItem (scope : CollectScope) : Tree.TopLevel → Collector Unit
  | .importDecl _ => pure ()
  | .classDecl c => discard (collectClass scope c)
  | .interfaceDecl i => discard (collectInterface scope i)

end Collector

/-- The dictionary with the declarations of a file, and the symbols defined by them. -/
def collectDeclarations (space : FileNamespace) (tree : SourceTree) (dictionary : Dictionary) :
    Dictionary × List Symbol :=
  let (_, collection) :=
    (tree.items.forM (Collector.collectItem ⟨space, [], []⟩)).run ⟨dictionary, []⟩
  (collection.dictionary, collection.defined)

end Javascribe

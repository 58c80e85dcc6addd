/-
# Object types and functions

A class or interface with its members, constructors and supertypes. Methods
that share a name are stored under names of their own, `name_0`, `name_1`
and so on in the order of declaration; the first is renamed when the second
is added.

Key definitions: `FunctionType`, `ObjectMember`, `ObjectType`,
`ObjectType.addMember`, `ObjectType.addMethod`.
-/
import Javascribe.Table
import Javascribe.Tree.Modifiers
import Javascribe.Typing.Constraint

namespace Javascribe

/-- A function. The last parameter of a variadic one is an array that also
stands for any number of its elements. -/
structure FunctionType where
  name : String
  typeParameters : List String := []
  parameters : List Constraint
  result : Constraint
  isVariadic : Bool := false
  deriving DecidableEq, Repr

/-- Where a member may be used. -/
inductive Visibility where
  | all
  | derived
  | self
  deriving DecidableEq, Repr

namespace Visibility

/-- The name of a visibility. -/
def name : Visibility → String
  | .all => "all"
  | .derived => "derived"
  | .self => "self"

/-- Where a declaration of an access level may be used. -/
def ofAccess : Access → Visibility
  | .everyone | .package => .all
  | .derived => .derived
  | .self => .self

end Visibility

/-- A member of an object type, and the object that declares it. -/
structure ObjectMember where
  name : String
  constraint : Constraint
  visibility : Visibility := .all
  isStatic : Bool := false
  isConstant : Bool := false
  isAbstract : Bool := false
  parent : Nat
  deriving DecidableEq, Repr

namespace ObjectMember

/-- Whether a member is a function by its own declaration. -/
def isMethod (member : ObjectMember) : Bool := member.constraint.isFunction

/-- The member with the access level and flags of a declaration. -/
def withModifiers (member : ObjectMember) (modifiers : Modifiers) : ObjectMember :=
  { member with
    visibility := .ofAccess modifiers.access
    isStatic := modifiers.isStatic
    isConstant := modifiers.isFinal
    isAbstract := modifiers.isAbstract }

end ObjectMember

/-- The two kinds of object types. -/
inductive ObjectCategory where
  | classType
  | interfaceType
  deriving DecidableEq, Repr

/-- The name of a category. -/
def ObjectCategory.name : ObjectCategory → String
  | .classType => "class"
  | .interfaceType => "interface"

/-- The name under which the method `name` number `index` is stored. -/
def overloadName (name : String) (index : Nat) : String := s!"{name}_{index}"

/-- A class or interface. Interfaces and abstract classes need an
implementation; final classes cannot be extended. -/
structure ObjectType where
  name : String
  category : ObjectCategory
  isConstructable : Bool
  isExtensible : Bool
  isAbstract : Bool
  typeParameters : List String
  constructors : List Nat
  supertypes : List Constraint
  members : Table String ObjectMember
  overloads : Table String (List String)

namespace ObjectType

/-- An object type without members. -/
def new (name : String) (category : ObjectCategory) : ObjectType where
  name := name
  category := category
  isConstructable := category == .classType
  isExtensible := true
  isAbstract := category == .interfaceType
  typeParameters := []
  constructors := []
  supertypes := []
  members := .empty
  overloads := .empty

/-- Whether the object type is an interface. -/
def isInterface (object : ObjectType) : Bool := object.category == .interfaceType

/-- Whether the object type is a class. -/
def isClass (object : ObjectType) : Bool := object.category == .classType

/-- The object type with a member, in place of any of that name. -/
def addMember (object : ObjectType) (member : ObjectMember) : ObjectType :=
  { object with members := object.members.insert member.name member }

/-- The object type with its method `name` moved to its stored name as the first overload. -/
def renameFirst (object : ObjectType) (name : String) (first : ObjectMember) : ObjectType :=
  let stored := overloadName name 0
  { object with
    members := (object.members.erase name).insert stored { first with name := stored }
    overloads := object.overloads.insert name [stored] }

/-- The object type with one more overload, and the name it is stored under. -/
def addOverload (object : ObjectType) (member : ObjectMember) : ObjectType × String :=
  let names := (object.overloads.find? member.name).getD []
  let stored := overloadName member.name names.length
  ({ object with
      members := object.members.insert stored { member with name := stored }
      overloads := object.overloads.insert member.name (names ++ [stored]) }, stored)

/-- The object type with a method, and the name the method is stored under. -/
def addMethod (object : ObjectType) (member : ObjectMember) : ObjectType × String :=
  match (object.members.find? member.name).filter (·.isMethod) with
  | some first => (object.renameFirst member.name first).addOverload member
  | none =>
    if object.overloads.contains member.name then object.addOverload member
    else (object.addMember member, member.name)

/-- The object type with one more constructor. -/
def addConstructor (object : ObjectType) (id : Nat) : ObjectType :=
  { object with constructors := object.constructors ++ [id] }

/-- The object type with one more supertype. -/
def addSupertype (object : ObjectType) (supertype : Constraint) : ObjectType :=
  { object with supertypes := object.supertypes ++ [supertype] }

/-- Whether the object type declares constructors. -/
def hasConstructors (object : ObjectType) : Bool := !object.constructors.isEmpty

/-- The member that is declared here and stored under a name. -/
def ownMember? (object : ObjectType) (name : String) : Option ObjectMember :=
  object.members.find? name

/-- The members declared here, in order. -/
def ownMembers (object : ObjectType) : List ObjectMember := object.members.values

/-- The stored names of the methods that share a name, in order. -/
def overloads? (object : ObjectType) (name : String) : Option (List String) :=
  object.overloads.find? name

end ObjectType
end Javascribe

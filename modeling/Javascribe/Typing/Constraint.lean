/-
# Types

A constraint says what a value may be: a definition, and whether the thing
meant is the definition itself (the class `A`) or a value of it (an `A`).
Objects and functions are known by their number in a dictionary. A
reference to a type that may not be known yet is a list of the identifiers
it could mean, the nearest first.

Key definitions: `SimpleType`, `Definition`, `Constraint`,
`Constraint.IsSettled`.
-/

namespace Javascribe

/-- The types without members of their own. Everything fits `dynamic`. -/
inductive SimpleType where
  | string
  | number
  | boolean
  | object
  | null
  | dynamic
  | void
  deriving DecidableEq, Repr

namespace SimpleType

/-- The name of a simple type in messages. -/
def name : SimpleType → String
  | .string => "String"
  | .number => "Number"
  | .boolean => "Boolean"
  | .object => "Object"
  | .null => "null"
  | .dynamic => "dynamic"
  | .void => "void"

/-- All simple types. -/
def all : List SimpleType := [.string, .number, .boolean, .object, .null, .dynamic, .void]

end SimpleType

/-- What a type is. An array keeps its element's definition, and whether its
elements are values of it or the definition itself. -/
inductive Definition where
  | simple (type : SimpleType)
  | object (id : Nat)
  | function (id : Nat)
  | array (element : Definition) (ofDefinitions : Bool)
  | unresolved (candidates : List String)
  deriving DecidableEq, Repr

/-- A definition, or a value of it. -/
structure Constraint where
  definition : Definition
  isDefinition : Bool := false
  deriving DecidableEq, Repr

namespace Definition

/-- The object, when the definition is one. -/
def object? : Definition → Option Nat
  | .object id => some id
  | _ => none

/-- The function, when the definition is one. -/
def function? : Definition → Option Nat
  | .function id => some id
  | _ => none

/-- The elements of an array. -/
def element? : Definition → Option Constraint
  | .array element ofDefinitions => some ⟨element, ofDefinitions⟩
  | _ => none

/-- How many arrays stand around the innermost elements of a definition. -/
def nesting : Definition → Nat
  | .array element _ => element.nesting + 1
  | _ => 0

/-- The elements of an array, their elements, and so on. -/
def elements : Definition → List Constraint
  | .array element ofDefinitions => ⟨element, ofDefinitions⟩ :: element.elements
  | _ => []

end Definition

namespace Constraint

/-- A value of a simple type. -/
def simple (type : SimpleType) : Constraint := ⟨.simple type, false⟩

/-- A value that could be anything. -/
def dynamic : Constraint := simple .dynamic

instance : Inhabited Constraint := ⟨dynamic⟩

/-- A value of an object type. -/
def object (id : Nat) : Constraint := ⟨.object id, false⟩

/-- An object type itself. -/
def objectType (id : Nat) : Constraint := ⟨.object id, true⟩

/-- A function. -/
def function (id : Nat) : Constraint := ⟨.function id, false⟩

/-- A value of a type that is known by candidates for its identifier. -/
def unresolved (candidates : List String) : Constraint := ⟨.unresolved candidates, false⟩

/-- An array of `element`. -/
def arrayOf (element : Constraint) : Constraint :=
  ⟨.array element.definition element.isDefinition, false⟩

/-- A value of the constraint's definition. -/
def asValue (constraint : Constraint) : Constraint := ⟨constraint.definition, false⟩

/-- Whether the constraint is of the given simple type. -/
def isSimple (constraint : Constraint) (type : SimpleType) : Bool :=
  constraint.definition == .simple type

/-- Whether nothing is known about the value. -/
def isDynamic (constraint : Constraint) : Bool := constraint.isSimple .dynamic

/-- Whether the constraint is a function. -/
def isFunction (constraint : Constraint) : Bool := constraint.definition.function?.isSome

/-- The type is known: it is no reference that has yet to be followed. -/
class IsSettled (constraint : Constraint) : Prop where
  ne_unresolved : ∀ candidates, constraint.definition ≠ .unresolved candidates

@[grind ←]
instance isSettled_simple (type : SimpleType) : (simple type).IsSettled :=
  ⟨fun _ => Definition.noConfusion⟩

@[grind ←]
instance isSettled_object (id : Nat) : (object id).IsSettled := ⟨fun _ => Definition.noConfusion⟩

@[grind ←]
instance isSettled_arrayOf (element : Constraint) : (arrayOf element).IsSettled :=
  ⟨fun _ => Definition.noConfusion⟩

end Constraint
end Javascribe

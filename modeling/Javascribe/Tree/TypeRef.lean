/-
# References to types

A type is referred to by a chain of names, with type arguments and array
dimensions: `a.b.C<D, E<F>>[][]`. The last name is the type's own; the ones
before it are packages or enclosing types.

Key definitions: `TypeRef`, `TypeRef.name`, `TypeRef.text`.
-/

namespace Javascribe

/-- A reference to a type, with the token it starts at. -/
structure TypeRef where
  names : List String
  arguments : List TypeRef
  dimensions : Nat
  token : Nat

namespace TypeRef

/-- The type with a name of its own and nothing else. -/
def named (name : String) (token : Nat) : TypeRef := ⟨[name], [], 0, token⟩

/-- The type's own name. -/
def name (type : TypeRef) : String := type.names.getLast?.getD ""

/-- Whether the type is named through a package or an enclosing type. -/
def isQualified (type : TypeRef) : Bool := 1 < type.names.length

/-- Whether the type is an array. -/
def isArray (type : TypeRef) : Bool := 0 < type.dimensions

/-- The type with one array dimension less. -/
def element (type : TypeRef) : TypeRef := { type with dimensions := type.dimensions - 1 }

mutual

/-- The type as it is written. -/
def text : TypeRef → String
  | ⟨names, arguments, dimensions, _⟩ =>
    ".".intercalate names ++ argumentsText arguments
      ++ String.join (List.replicate dimensions "[]")

/-- Type arguments in their brackets; nothing when there are none. -/
def argumentsText : List TypeRef → String
  | [] => ""
  | type :: types => "<" ++ text type ++ tailText types ++ ">"

/-- Each type after a comma. -/
def tailText : List TypeRef → String
  | [] => ""
  | type :: types => ", " ++ text type ++ tailText types

end

end TypeRef
end Javascribe

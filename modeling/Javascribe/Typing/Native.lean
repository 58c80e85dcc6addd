/-
# Native types

The types every dictionary starts with: strings and numbers have members of
their own, and the globals of the host can be anything.

Key definitions: `Native.type?`, `Native.boxed?`, `Dictionary.native`.
-/
import Javascribe.Typing.Dictionary

namespace Javascribe
namespace Native

/-- The names that stand for anything wherever a value is expected. -/
def dynamicGlobals : List String :=
  ["console", "document", "window", "global", "System", "Math", "Integer", "Double", "Long",
    "Boolean", "Character", "String", "Object", "Exception", "RuntimeException", "Thread"]

/-- A string. -/
def string : Constraint := .simple .string

/-- A number. -/
def number : Constraint := .simple .number

/-- A truth value. -/
def boolean : Constraint := .simple .boolean

/-- No value. -/
def void : Constraint := .simple .void

/-- The null value. -/
def null : Constraint := .simple .null

/-- The names of numeric types. -/
def numberNames : List String :=
  ["int", "Integer", "Number", "float", "Float", "double", "Double", "long", "Long", "short",
    "Short", "byte", "Byte"]

/-- The type that a name always stands for. -/
def type? (name : String) : Option Constraint :=
  if ["String", "char", "Character"].contains name then some string
  else if numberNames.contains name then some number
  else if ["boolean", "Boolean"].contains name then some boolean
  else if name == "Object" then some .dynamic
  else if name == "void" then some void
  else none

/-- The object type with the members of strings. -/
def stringObject : Nat := 0

/-- The object type with the members of numbers. -/
def numberObject : Nat := 1

/-- The object type with the members of values of a simple type. -/
def boxed? : SimpleType → Option Nat
  | .string => some stringObject
  | .number => some numberObject
  | _ => none

/-- The functions of the native object types. -/
def functions : Array FunctionType := #[
  { name := "String", parameters := [string], result := string },
  { name := "length", parameters := [], result := number },
  { name := "charAt", parameters := [number], result := string },
  { name := "Number", parameters := [number], result := number },
  { name := "toString", parameters := [], result := string }]

/-- A native object type with a constructor and methods, which cannot be extended. -/
def objectType (name : String) (id constructor : Nat) (methods : List (String × Nat)) :
    ObjectType :=
  let object := ((ObjectType.new name .classType).addConstructor constructor)
  methods.foldl
    (fun object (method, function) =>
      object.addMember { name := method, constraint := .function function, parent := id })
    { object with isExtensible := false }

end Native

/-- The dictionary with nothing but native types. -/
def Dictionary.native : Dictionary :=
  Native.dynamicGlobals.foldl (fun dictionary name => dictionary.addSymbol ⟨name, name, .dynamic⟩)
    { Dictionary.empty with
      objects := #[
        Native.objectType "String" Native.stringObject 0 [("length", 1), ("charAt", 2)],
        Native.objectType "Number" Native.numberObject 3 [("toString", 4)]]
      functions := Native.functions }

end Javascribe

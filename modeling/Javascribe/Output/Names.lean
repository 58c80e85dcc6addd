/-
# Names in the output

How types, operators and default values are written in JavaScript.

Key definitions: `hostTypeName`, `TypeRef.hostName`, `TypeRef.defaultValue`,
`Operator.hostSymbol`.
-/
import Javascribe.Tree.Operator
import Javascribe.Tree.TypeRef

namespace Javascribe

/-- The global that stands for a library type, or the name itself. -/
def hostTypeName (name : String) : String :=
  if ["Exception", "RuntimeException", "Throwable", "Error", "IllegalArgumentException",
      "IllegalStateException"].contains name then "Error"
  else if ["Integer", "Long", "Short", "Byte", "Double", "Float"].contains name then "Number"
  else if name == "Character" then "String"
  else name

/-- Whether a clause that catches `name` catches everything. -/
def isCatchAll (name : String) : Bool :=
  ["Exception", "Throwable", "RuntimeException", "Error"].contains name

/-- Whether a name starts with a capital letter. -/
def isCapitalized (name : String) : Bool := name.toList.head?.any Char.isUpper

/-- The names of a type from the first capitalized one on; all when there is none. -/
def typeNamesOf (names : List String) : List String :=
  match names.findIdx? isCapitalized with
  | some index => names.drop index
  | none => names

namespace TypeRef

/-- How a type is written: without its package, with the types around it. -/
def hostName (type : TypeRef) : String :=
  match typeNamesOf type.names with
  | [name] => hostTypeName name
  | names => ".".intercalate names

/-- What a variable of the type holds before anything is assigned to it. -/
def defaultValue (type : TypeRef) : String :=
  if type.isArray then "null"
  else if ["byte", "short", "int", "long", "float", "double"].contains type.name then "0"
  else if type.name == "boolean" then "false"
  else "null"

end TypeRef

/-- How an operator is written. Equality is strict. -/
def Operator.hostSymbol : Operator → String
  | .equal => "==="
  | .notEqual => "!=="
  | .elvis => "||"
  | operator => operator.symbol

end Javascribe

/-
# Outlines of types

A constraint as short text: the name of a simple type, `object#3`,
`function#2`, `array(T)` or `unresolved(a|b)`. A definition itself, as
opposed to a value of it, has `^` before it.

Key definitions: `Constraint.outline`.
-/
import Javascribe.Typing.Constraint

namespace Javascribe

/-- The mark of a definition itself. -/
def Constraint.mark (isDefinition : Bool) : String := if isDefinition then "^" else ""

/-- The outline of a definition. -/
def Definition.outline : Definition → String
  | .simple type => type.name
  | .object id => s!"object#{id}"
  | .function id => s!"function#{id}"
  | .array element ofDefinitions =>
    "array(" ++ Constraint.mark ofDefinitions ++ outline element ++ ")"
  | .unresolved candidates => "unresolved(" ++ "|".intercalate candidates ++ ")"

/-- The outline of a constraint. -/
def Constraint.outline (constraint : Constraint) : String :=
  Constraint.mark constraint.isDefinition ++ constraint.definition.outline

end Javascribe

/-
# Matching types

A source fits a target when a value of the source may stand where the target
is expected. Equal definitions fit, anything fits a dynamic type and a
dynamic type fits anything, and null fits what is not a number, a truth value
or void. Otherwise objects fit their supertypes, arrays fit when their
elements do, and functions fit by result and parameters.

Key definitions: `Dictionary.isSubtypeOf`, `Dictionary.fitsResolved`,
`Dictionary.fits`.
-/
import Javascribe.Typing.Dictionary

namespace Javascribe

/-- Whether null may stand where a definition is expected. -/
def Definition.admitsNull : Definition → Bool
  | .simple .number | .simple .boolean | .simple .void => false
  | _ => true

namespace Dictionary

variable (dictionary : Dictionary)

/-- Whether an object is another one or has it as a supertype. -/
def isSubtypeOf (source target : Nat) : Bool :=
  source == target || (dictionary.allSupertypes source).contains target

/-- Whether two lists are equally long and fit one by one. -/
def allFitBy (matching : Constraint → Constraint → Bool) :
    List Constraint → List Constraint → Bool
  | [], [] => true
  | source :: sources, target :: targets =>
    matching source target && allFitBy matching sources targets
  | _, _ => false

/-- Whether functions fit by result and parameters. -/
def functionFitsBy (matching : Constraint → Constraint → Bool) (source target : Nat) : Bool :=
  let source := dictionary.function source
  let target := dictionary.function target
  matching source.result target.result && allFitBy matching source.parameters target.parameters

/-- Whether constraints fit that are no references, when types inside them are
compared by `matching`. -/
def fitsResolved (matching : Constraint → Constraint → Bool) (source target : Constraint) :
    Bool :=
  if source.definition == target.definition then !source.isDefinition || target.isDefinition
  else if target.isDynamic || source.isDynamic then true
  else if source.isSimple .null then target.definition.admitsNull
  else if source.isDefinition && !target.isDefinition then false
  else
    match source.definition, target.definition with
    | .object source, .object target => dictionary.isSubtypeOf source target
    | .function source, .function target => dictionary.functionFitsBy matching source target
    | .array source sourceDefinitions, .array target targetDefinitions =>
      matching ⟨source, sourceDefinitions⟩ ⟨target, targetDefinitions⟩
    | _, _ => false

/-- Whether constraints fit, as far as types are compared at most `depth` deep. -/
def fitsAt : Nat → Constraint → Constraint → Bool
  | 0, _, _ => false
  | depth + 1, source, target =>
    dictionary.fitsResolved (fitsAt depth) (dictionary.resolve source)
      (dictionary.resolve target)

/-- The types that are written in the dictionary, with the elements of arrays. A
function outside the dictionary gives nothing back. -/
def types : List Constraint :=
  dictionary.symbols.values.flatMap (·.constraint.definition.elements)
    ++ dictionary.functions.toList.flatMap (fun function =>
        (function.result :: function.parameters).flatMap fun constraint =>
          constraint :: constraint.definition.elements)
    ++ [.simple .void]

/-- All types that can be met from a constraint on. -/
def typesMet (constraint : Constraint) : List Constraint :=
  constraint :: constraint.definition.elements ++ dictionary.types

/-- How many pairs of types can be met in a comparison. -/
def pairsMet (source target : Constraint) : Nat :=
  (dictionary.typesMet source).length * (dictionary.typesMet target).length

/-- Whether a value of `source` may stand where `target` is expected. Types are
compared as deep as there are pairs of them; a comparison that goes on after
that meets a pair again, and never ends. -/
def fits (source target : Constraint) : Bool :=
  dictionary.fitsAt (dictionary.pairsMet source target) source target

/-- Whether two lists are equally long and fit one by one. -/
def allFit (sources targets : List Constraint) : Bool :=
  allFitBy dictionary.fits sources targets

/-- Whether functions fit by result and parameters. -/
def functionFits (source target : Nat) : Bool :=
  dictionary.functionFitsBy dictionary.fits source target

end Dictionary
end Javascribe

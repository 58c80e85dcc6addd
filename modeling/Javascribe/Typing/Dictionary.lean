/-
# Dictionaries

A dictionary holds the object types and functions of a compilation and maps
identifiers to symbols. A reference means the first of its candidates that
is defined when it is read, and anything at all when none is. So the order
in which files are read does not matter. The numbers of types and functions are
natural numbers: fewer than 2³² of each are meant.

Key definitions: `Dictionary`, `Dictionary.resolve`,
`Dictionary.allSupertypes`, `Dictionary.member?`, `Dictionary.typeDepth`,
`Dictionary.typeName`.
-/
import Javascribe.Limits
import Javascribe.Typing.Object

namespace Javascribe

/-- What an identifier stands for. -/
structure Symbol where
  identifier : String
  name : String
  constraint : Constraint
  deriving DecidableEq, Repr

/-- The symbol of what is not defined. -/
def Symbol.unknown : Symbol := ⟨"", "dynamic", .dynamic⟩

/-- Symbols by identifier, and the object types and functions they refer to. -/
structure Dictionary where
  symbols : Table String Symbol
  objects : Array ObjectType
  functions : Array FunctionType

namespace Dictionary

/-- The dictionary with nothing in it. -/
def empty : Dictionary := ⟨.empty, #[], #[]⟩

/-! ### Building -/

/-- The dictionary with a symbol, in place of any of its identifier. -/
def addSymbol (dictionary : Dictionary) (symbol : Symbol) : Dictionary :=
  { dictionary with symbols := dictionary.symbols.insert symbol.identifier symbol }

/-- The dictionary with one more object type, and its number. -/
def addObject (dictionary : Dictionary) (object : ObjectType) : Dictionary × Nat :=
  ({ dictionary with objects := dictionary.objects.push object }, dictionary.objects.size)

/-- The dictionary with one more function, and its number. -/
def addFunction (dictionary : Dictionary) (function : FunctionType) : Dictionary × Nat :=
  ({ dictionary with functions := dictionary.functions.push function }, dictionary.functions.size)

/-- The dictionary with an object type changed. -/
def modifyObject (dictionary : Dictionary) (id : Nat) (change : ObjectType → ObjectType) :
    Dictionary :=
  { dictionary with objects := dictionary.objects.modify id change }

variable (dictionary : Dictionary)

/-! ### Looking up -/

/-- An object type; outside the dictionary there are only empty ones. -/
def object (id : Nat) : ObjectType := (dictionary.objects[id]?).getD (.new "" .classType)

/-- A function; outside the dictionary they take and return nothing. -/
def function (id : Nat) : FunctionType :=
  (dictionary.functions[id]?).getD ⟨"", [], [], .simple .void, false⟩

/-- The symbol of an identifier. -/
def symbol? (identifier : String) : Option Symbol := dictionary.symbols.find? identifier

/-- Whether an identifier is defined. -/
def hasSymbol (identifier : String) : Bool := dictionary.symbols.contains identifier

/-- The symbol of the first candidate that is defined. -/
def lookupFirst? (candidates : List String) : Option Symbol :=
  candidates.findSome? dictionary.symbol?

/-- The symbol of the first candidate that is defined, or the unknown symbol. -/
def lookupFirst (candidates : List String) : Symbol :=
  (dictionary.lookupFirst? candidates).getD .unknown

/-! ### References -/

/-- What a reference means, following at most `depth` of them. -/
def resolveCandidatesAt : Nat → List String → Definition
  | 0, _ => .simple .dynamic
  | depth + 1, candidates =>
    match dictionary.lookupFirst? candidates with
    | none => .simple .dynamic
    | some symbol =>
      match symbol.constraint.definition with
      | .unresolved next => resolveCandidatesAt depth next
      | definition => definition

/-- What a reference means. -/
def resolveCandidates (candidates : List String) : Definition :=
  dictionary.resolveCandidatesAt maxResolutionDepth candidates

/-- The constraint with a reference replaced by what it means. -/
def resolve (constraint : Constraint) : Constraint :=
  match constraint.definition with
  | .unresolved candidates => ⟨dictionary.resolveCandidates candidates, constraint.isDefinition⟩
  | _ => constraint

/-- A reference that was followed is settled. -/
instance isSettled_resolve (constraint : Constraint) :
    (dictionary.resolve constraint).IsSettled := by
  have followed (depth : Nat) (candidates next : List String) :
      dictionary.resolveCandidatesAt depth candidates ≠ .unresolved next := by
    fun_induction resolveCandidatesAt <;> grind
  constructor
  intro candidates
  unfold resolve
  split
  · exact followed _ _ candidates
  · next other => exact other candidates

/-! ### Inheritance -/

/-- The declared supertypes of an object that are objects. -/
def directSupertypes (id : Nat) : List Nat :=
  (dictionary.object id).supertypes.filterMap fun supertype =>
    (dictionary.resolve supertype).definition.object?

/-- The members of `ids` that are not in `seen`, each once. -/
def freshIds (seen ids : List Nat) : List Nat :=
  ids.foldl (fun fresh id => if seen.contains id || fresh.contains id then fresh else fresh ++ [id])
    []

/-- All that has been seen after `levels` more levels of supertypes above the
objects of the last level. -/
def supertypesAbove : Nat → List Nat → List Nat → List Nat
  | 0, seen, _ => seen
  | levels + 1, seen, last =>
    let next := freshIds seen (last.flatMap dictionary.directSupertypes)
    if next.isEmpty then seen else supertypesAbove levels (seen ++ next) next

/-- All supertypes of an object without itself, the nearest first. -/
def allSupertypes (id : Nat) : List Nat :=
  (dictionary.supertypesAbove maxSupertypeDepth [id] [id]).tail

/-- An object and all its supertypes, the nearest first. -/
def ancestry (id : Nat) : List Nat := id :: dictionary.allSupertypes id

/-- The member of an object, declared by it or by the nearest supertype. -/
def member? (id : Nat) (name : String) : Option ObjectMember :=
  (dictionary.ancestry id).findSome? fun ancestor => (dictionary.object ancestor).ownMember? name

/-- The stored names of the methods that share a name, of the object or of
the nearest supertype that has some. -/
def overloads? (id : Nat) (name : String) : Option (List String) :=
  (dictionary.ancestry id).findSome? fun ancestor => (dictionary.object ancestor).overloads? name

/-! ### Types inside types -/

/-- How deeply the parameters and the result of a function are nested. -/
def functionNesting (id : Nat) : Nat :=
  let function := dictionary.function id
  ((function.result :: function.parameters).map (·.definition.nesting)).foldr max 0

/-- The types that are met one inside the other from a definition on: the
elements of arrays, and what a function takes and gives. -/
def typeDepth : Definition → Nat
  | .array element _ => typeDepth element + 1
  | .function id => dictionary.functionNesting id + 2
  | _ => 1

/-- How deep a type is followed, also behind the references in it. -/
def typeReach (constraint : Constraint) : Nat :=
  dictionary.typeDepth constraint.definition + maxReferenceNesting

/-! ### Names -/

/-- The name of a constraint in messages, at most `depth` types deep. -/
def typeNameAt : Nat → Constraint → String
  | 0, _ => SimpleType.dynamic.name
  | depth + 1, constraint =>
    match (dictionary.resolve constraint).definition with
    | .simple type => type.name
    | .object id => (dictionary.object id).name
    | .array element ofDefinitions => typeNameAt depth ⟨element, ofDefinitions⟩ ++ "[]"
    | .function id =>
      let function := dictionary.function id
      "(" ++ ", ".intercalate (function.parameters.map (typeNameAt depth)) ++ ") => "
        ++ typeNameAt depth function.result
    | .unresolved _ => SimpleType.dynamic.name

/-- The name of a constraint in messages. -/
def typeName (constraint : Constraint) : String :=
  dictionary.typeNameAt (dictionary.typeReach constraint) constraint

end Dictionary
end Javascribe

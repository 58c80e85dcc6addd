/-
# Dictionaries that remember

References are resolved again and again while types are compared, so a
dictionary in use remembers what the candidates it was asked for mean. Asking
may add to what is remembered. A new symbol may change what any candidates
mean, so adding one forgets everything; object types and functions do not
change what a reference means.

A session is a sequence of actions on one dictionary, each with an answer.

Key definitions: `CachedDictionary`, `CachedDictionary.resolveCandidates`,
`DictionaryAction`, `Dictionary.perform`, `CachedDictionary.perform`.
-/
import Javascribe.Typing.Dictionary

namespace Javascribe

/-- A dictionary and the meanings of candidates that were asked for. -/
structure CachedDictionary where
  dictionary : Dictionary
  meanings : Table (List String) Definition

/-- A computation that reads a dictionary, and may remember what it finds. -/
abbrev Lookup := StateM CachedDictionary

namespace CachedDictionary

/-- A dictionary that remembers nothing yet. -/
def ofDictionary (dictionary : Dictionary) : CachedDictionary := ⟨dictionary, .empty⟩

/-! ### Building -/

/-- Adds a symbol, in place of any of its identifier. -/
def addSymbol (symbol : Symbol) : Lookup Unit :=
  modify fun cached => ⟨cached.dictionary.addSymbol symbol, .empty⟩

/-- Adds an object type and gives its number. -/
def addObject (object : ObjectType) : Lookup Nat := fun cached =>
  let (dictionary, id) := cached.dictionary.addObject object
  (id, { cached with dictionary := dictionary })

/-- Adds a function and gives its number. -/
def addFunction (function : FunctionType) : Lookup Nat := fun cached =>
  let (dictionary, id) := cached.dictionary.addFunction function
  (id, { cached with dictionary := dictionary })

/-- Changes an object type. -/
def modifyObject (id : Nat) (change : ObjectType → ObjectType) : Lookup Unit :=
  modify fun cached => { cached with dictionary := cached.dictionary.modifyObject id change }

/-! ### Asking -/

/-- What a reference means: what is remembered, or else what the symbols say. -/
def resolveCandidates (candidates : List String) : Lookup Definition := do
  let cached ← get
  match cached.meanings.find? candidates with
  | some meaning => return meaning
  | none =>
    let meaning := cached.dictionary.resolveCandidates candidates
    set { cached with meanings := cached.meanings.insert candidates meaning }
    return meaning

/-- The constraint with a reference replaced by what it means. -/
def resolve (constraint : Constraint) : Lookup Constraint := do
  match constraint.definition with
  | .unresolved candidates => return ⟨← resolveCandidates candidates, constraint.isDefinition⟩
  | _ => return constraint

/-- The declared supertypes of an object that are objects. -/
def directSupertypes (id : Nat) : Lookup (List Nat) := do
  let supertypes ← ((← get).dictionary.object id).supertypes.mapM resolve
  return supertypes.filterMap (·.definition.object?)

/-- All that has been seen after `levels` more levels of supertypes above the
objects of the last level. -/
def supertypesAbove : Nat → List Nat → List Nat → Lookup (List Nat)
  | 0, seen, _ => return seen
  | levels + 1, seen, last => do
    let supertypes ← last.mapM directSupertypes
    let next := Dictionary.freshIds seen supertypes.flatten
    if next.isEmpty then return seen else supertypesAbove levels (seen ++ next) next

/-- All supertypes of an object without itself, the nearest first. -/
def allSupertypes (id : Nat) : Lookup (List Nat) := do
  return (← supertypesAbove maxSupertypeDepth [id] [id]).tail

/-- The name of a constraint in messages, at most `depth` types deep. -/
def typeNameAt : Nat → Constraint → Lookup String
  | 0, _ => return SimpleType.dynamic.name
  | depth + 1, constraint => do
    match (← resolve constraint).definition with
    | .simple type => return type.name
    | .object id => return ((← get).dictionary.object id).name
    | .array element ofDefinitions =>
      return (← typeNameAt depth ⟨element, ofDefinitions⟩) ++ "[]"
    | .function id =>
      let function := (← get).dictionary.function id
      let parameters ← function.parameters.mapM (typeNameAt depth)
      return "(" ++ ", ".intercalate parameters ++ ") => " ++ (← typeNameAt depth function.result)
    | .unresolved _ => return SimpleType.dynamic.name

/-- The name of a constraint in messages. -/
def typeName (constraint : Constraint) : Lookup String := do
  typeNameAt ((← get).dictionary.typeReach constraint) constraint

end CachedDictionary

/-! ### Sessions -/

/-- What can be done with a dictionary: the first four change it, the others ask. -/
inductive DictionaryAction where
  | addSymbol (symbol : Symbol)
  | addObject (object : ObjectType)
  | addFunction (function : FunctionType)
  | modifyObject (id : Nat) (change : ObjectType → ObjectType)
  | resolve (constraint : Constraint)
  | typeName (constraint : Constraint)
  | directSupertypes (id : Nat)
  | allSupertypes (id : Nat)

/-- What an action answers. -/
inductive DictionaryAnswer where
  | done
  | added (id : Nat)
  | constraint (constraint : Constraint)
  | name (name : String)
  | objects (ids : List Nat)
  deriving DecidableEq

namespace Dictionary

/-- An action on a dictionary that looks everything up. -/
def perform : DictionaryAction → StateM Dictionary DictionaryAnswer
  | .addSymbol symbol => do
    modify (·.addSymbol symbol)
    return .done
  | .addObject object => fun dictionary => (dictionary.addObject object).swap.map .added id
  | .addFunction function => fun dictionary => (dictionary.addFunction function).swap.map .added id
  | .modifyObject id change => do
    modify (·.modifyObject id change)
    return .done
  | .resolve constraint => return .constraint ((← get).resolve constraint)
  | .typeName constraint => return .name ((← get).typeName constraint)
  | .directSupertypes id => return .objects ((← get).directSupertypes id)
  | .allSupertypes id => return .objects ((← get).allSupertypes id)

/-- The answers of a session. -/
def performAll (actions : List DictionaryAction) : StateM Dictionary (List DictionaryAnswer) :=
  actions.mapM perform

end Dictionary

namespace CachedDictionary

/-- An action on a dictionary that remembers. -/
def perform : DictionaryAction → Lookup DictionaryAnswer
  | .addSymbol symbol => do
    addSymbol symbol
    return .done
  | .addObject object => .added <$> addObject object
  | .addFunction function => .added <$> addFunction function
  | .modifyObject id change => do
    modifyObject id change
    return .done
  | .resolve constraint => .constraint <$> resolve constraint
  | .typeName constraint => .name <$> typeName constraint
  | .directSupertypes id => .objects <$> directSupertypes id
  | .allSupertypes id => .objects <$> allSupertypes id

/-- The answers of a session. -/
def performAll (actions : List DictionaryAction) : Lookup (List DictionaryAnswer) :=
  actions.mapM perform

end CachedDictionary
end Javascribe

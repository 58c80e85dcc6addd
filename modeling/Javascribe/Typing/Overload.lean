/-
# Choosing what is called

Of several methods or constructors the first, in the order of declaration,
is called whose parameters accept the arguments.

Key definitions: `Dictionary.accepts`, `Dictionary.method`,
`Dictionary.constructor?`.
-/
import Javascribe.Typing.Matching

namespace Javascribe

/-- A method chosen for a call, with the name it is stored under. -/
structure MethodMatch where
  name : String
  member : ObjectMember
  result : Constraint

/-- What a call of a name finds. -/
inductive MethodLookup where
  | found (method : MethodMatch)
  | invalidArguments
  | notFunction (member : ObjectMember)
  | missing

namespace Dictionary

variable (dictionary : Dictionary)

/-- Whether the arguments past the fixed parameters of a variadic function
fit its last parameter `rest`: as one array, or each as an element. -/
def acceptsTrailing (rest : Constraint) (trailing : List Constraint) : Bool :=
  let element := ((dictionary.resolve rest).definition.element?).getD (dictionary.resolve rest)
  (match trailing with
    | [argument] => dictionary.fits argument rest
    | _ => false)
    || trailing.all (dictionary.fits · element)

/-- Whether a function can be called with arguments. -/
def accepts (function : FunctionType) (arguments : List Constraint) : Bool :=
  if !function.isVariadic then dictionary.allFit arguments function.parameters
  else
    match function.parameters.getLast? with
    | none => arguments.isEmpty
    | some rest =>
      let fixed := function.parameters.dropLast
      fixed.length ≤ arguments.length
        && dictionary.allFit (arguments.take fixed.length) fixed
        && dictionary.acceptsTrailing rest (arguments.drop fixed.length)

/-- A member called with arguments, if it can be. -/
def callMember? (name : String) (member : ObjectMember) (arguments : List Constraint) :
    Option MethodMatch :=
  let constraint := dictionary.resolve member.constraint
  match constraint.definition with
  | .function id =>
    let function := dictionary.function id
    if dictionary.accepts function arguments then some ⟨name, member, function.result⟩ else none
  | .simple .dynamic => some ⟨name, member, .dynamic⟩
  | _ => none

/-- The first of the methods stored under `names` that accepts the arguments. -/
def firstOverload? (id : Nat) (arguments : List Constraint) (names : List String) :
    Option MethodMatch :=
  names.findSome? fun stored => do
    let member ← dictionary.member? id stored
    dictionary.callMember? stored member arguments

/-- The method `name` of an object to call with arguments. -/
def method (id : Nat) (name : String) (arguments : List Constraint) : MethodLookup :=
  match dictionary.overloads? id name with
  | some names =>
    match dictionary.firstOverload? id arguments names with
    | some method => .found method
    | none => .invalidArguments
  | none =>
    match dictionary.member? id name with
    | none => .missing
    | some member =>
      match dictionary.callMember? name member arguments with
      | some method => .found method
      | none => if member.isMethod then .invalidArguments else .notFunction member

/-- The first constructor of an object that accepts the arguments, by its place. -/
def constructor? (id : Nat) (arguments : List Constraint) : Option Nat :=
  (dictionary.object id).constructors.findIdx? fun constructor =>
    dictionary.accepts (dictionary.function constructor) arguments

end Dictionary
end Javascribe

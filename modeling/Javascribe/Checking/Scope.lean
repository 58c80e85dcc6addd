/-
# Scopes

The local names of nested scopes. A name means what the innermost scope
that declares it says, and leaving a scope forgets all it declared.

Key definitions: `Local`, `Scopes`, `Scopes.declare`, `Scopes.find?`.
-/
import Javascribe.Table
import Javascribe.Typing.Constraint

namespace Javascribe

/-- A local variable, parameter or caught exception, of a type that is known.
A constant one cannot be assigned again. -/
@[ext]
structure Local where
  name : String
  constraint : Constraint
  isConstant : Bool
  [settled : constraint.IsSettled]
  deriving DecidableEq, Repr

namespace Local

/-- A name of something that could be anything. -/
def dynamic (name : String) : Local := ⟨name, .simple .dynamic, false⟩

/-- The name as that of an array. -/
def asArray (declared : Local) : Local :=
  ⟨declared.name, .arrayOf declared.constraint, declared.isConstant⟩

end Local

/-- Scopes, the innermost first. -/
structure Scopes where
  levels : List (Table String Local) := []

namespace Scopes

/-- No scope at all. -/
def empty : Scopes := {}

/-- With a new scope inside the others. -/
def enter (scopes : Scopes) : Scopes := ⟨.empty :: scopes.levels⟩

/-- Without the innermost scope. -/
def exit (scopes : Scopes) : Scopes := ⟨scopes.levels.tail⟩

/-- How many scopes there are. -/
def depth (scopes : Scopes) : Nat := scopes.levels.length

/-- With a name declared in the innermost scope; outside of any scope nothing
is declared. -/
def declare (scopes : Scopes) (declared : Local) : Scopes :=
  match scopes.levels with
  | [] => scopes
  | level :: levels => ⟨level.insert declared.name declared :: levels⟩

/-- What a name means. -/
def find? (scopes : Scopes) (name : String) : Option Local :=
  scopes.levels.findSome? (·.find? name)

end Scopes
end Javascribe

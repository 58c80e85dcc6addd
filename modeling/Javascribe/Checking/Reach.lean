/-
# Access to members

Code inside a type, however deep, may use the private members of that type;
code inside a subtype may use its protected members.

Key definitions: `Reach`, `Dictionary.reach`.
-/
import Javascribe.Typing.Matching

namespace Javascribe

/-- Whether a member can be used, and if not, why. -/
inductive Reach where
  | allowed
  | privateMember
  | protectedMember
  deriving DecidableEq, Repr

/-- Whether a member can be used inside the objects `enclosing`. -/
def Dictionary.reach (dictionary : Dictionary) (enclosing : List Nat) (member : ObjectMember) :
    Reach :=
  match member.visibility with
  | .all => .allowed
  | .self => if enclosing.contains member.parent then .allowed else .privateMember
  | .derived =>
    if enclosing.any (dictionary.isSubtypeOf · member.parent) then .allowed else .protectedMember

end Javascribe

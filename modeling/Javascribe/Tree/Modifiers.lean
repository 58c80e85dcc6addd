/-
# Modifiers

The keywords before a declaration: at most one access level counts (the
last), and `static`, `final` and `abstract` are flags.

Key definitions: `Access`, `Modifiers`, `Modifiers.add?`.
-/

namespace Javascribe

/-- Who may use a declaration. -/
inductive Access where
  | everyone
  | derived
  | self
  | package
  deriving DecidableEq, Repr

namespace Access

/-- The access level a keyword stands for. -/
def ofKeyword? : String → Option Access
  | "public" => some .everyone
  | "protected" => some .derived
  | "private" => some .self
  | _ => none

/-- The name of an access level; package access has no keyword. -/
def name : Access → String
  | .everyone => "public"
  | .derived => "protected"
  | .self => "private"
  | .package => "package"

end Access

/-- The access level and flags of a declaration. -/
structure Modifiers where
  access : Access := .package
  isStatic : Bool := false
  isFinal : Bool := false
  isAbstract : Bool := false
  deriving DecidableEq, Repr

namespace Modifiers

/-- The modifiers after one more keyword, or nothing when the word is no modifier. -/
def add? (modifiers : Modifiers) (word : String) : Option Modifiers :=
  match Access.ofKeyword? word with
  | some access => some { modifiers with access := access }
  | none =>
    match word with
    | "static" => some { modifiers with isStatic := true }
    | "final" => some { modifiers with isFinal := true }
    | "abstract" => some { modifiers with isAbstract := true }
    | _ => none

end Modifiers
end Javascribe

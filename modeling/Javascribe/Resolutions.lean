/-
# Resolutions

What the checker finds out about names and the output needs to know, by the
token at which the name stands: under which name a called method is stored,
what a bare name has to be qualified with, and which constructor an
instantiation calls.

Key definitions: `Resolutions`.
-/
import Javascribe.Table

namespace Javascribe

/-- What names mean, by token. -/
structure Resolutions where
  callNames : Table Nat String := .empty
  qualifiers : Table Nat String := .empty
  constructors : Table Nat Nat := .empty

namespace Resolutions

/-- Nothing found out. -/
def empty : Resolutions := {}

/-- The name under which the method called at a token is stored. -/
def callName? (resolutions : Resolutions) (token : Nat) : Option String :=
  resolutions.callNames.find? token

/-- What the name at a token has to be qualified with. -/
def qualifier? (resolutions : Resolutions) (token : Nat) : Option String :=
  resolutions.qualifiers.find? token

/-- Which constructor the instantiation at a token calls. -/
def constructor? (resolutions : Resolutions) (token : Nat) : Option Nat :=
  resolutions.constructors.find? token

/-- With the stored name of the method called at a token. -/
def addCallName (resolutions : Resolutions) (token : Nat) (name : String) : Resolutions :=
  { resolutions with callNames := resolutions.callNames.insert token name }

/-- With the qualifier of the name at a token. -/
def addQualifier (resolutions : Resolutions) (token : Nat) (qualifier : String) : Resolutions :=
  { resolutions with qualifiers := resolutions.qualifiers.insert token qualifier }

/-- With the constructor that the instantiation at a token calls. -/
def addConstructor (resolutions : Resolutions) (token index : Nat) : Resolutions :=
  { resolutions with constructors := resolutions.constructors.insert token index }

end Resolutions
end Javascribe

/-
# Diagnostics

A diagnostic is a problem found in a file: its severity, number and message,
and, when it belongs to a token, that token's byte range and line. A length
of zero means that there is no range.

Key definitions: `Diagnostic`, `Diagnostic.withoutSpan`, `Code.message`.
-/
import Javascribe.Diagnostic.Code
import Javascribe.Diagnostic.Template

namespace Javascribe

/-- A problem found in a file. -/
structure Diagnostic where
  file : String
  start : Nat
  length : Nat
  line : Option Nat
  message : String
  severity : Severity
  code : Nat
  deriving DecidableEq, Repr

/-- The message of a problem. -/
def Code.message (code : Code) (arguments : List String) : String :=
  Template.fill code.template arguments

namespace Diagnostic

/-- A diagnostic about a file as a whole; a number outside the catalog is an error. -/
def withoutSpan (file message : String) (code : Nat) : Diagnostic where
  file := file
  start := 0
  length := 0
  line := none
  message := message
  severity := ((Code.ofNumber? code).map Code.severity).getD .error
  code := code

/-- A diagnostic of a given severity with no line. -/
def plain (severity : Severity) (file : String) (start length : Nat) (message : String)
    (code : Nat) : Diagnostic where
  file := file
  start := start
  length := length
  line := none
  message := message
  severity := severity
  code := code

/-- Whether the diagnostic is an error. -/
def isError (diagnostic : Diagnostic) : Bool := diagnostic.severity == .error

/-- Whether the diagnostic has a byte range. -/
def hasSpan (diagnostic : Diagnostic) : Bool := 0 < diagnostic.length

end Diagnostic
end Javascribe

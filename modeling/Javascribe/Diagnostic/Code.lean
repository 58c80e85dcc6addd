/-
# The catalog of problems

Every problem the compiler reports has a number and a message template. The
numbers are grouped: 1000 for characters, 1100 for tokens, 2000 for what the
checker finds, 5000 for files and configuration. Only a missing package is a
warning; everything else is an error.

Key definitions: `Code`, `Code.number`, `Code.template`, `Code.severity`,
`Code.ofNumber?`.
-/

namespace Javascribe

/-- How serious a diagnostic is. -/
inductive Severity where
  | warning
  | error
  | message
  deriving DecidableEq, Repr

/-- The word for a severity in reports. -/
def Severity.label : Severity → String
  | .warning => "warning"
  | .error => "error"
  | .message => "message"

/-- The kinds of problems. -/
inductive Code where
  | unexpectedCharacter
  | unexpectedToken
  | unknownIdentifier
  | typeIsNotAssignableToType
  | classCannotExtendNonClass
  | classCannotBeExtended
  | classCannotImplementNonInterface
  | classMustImplementAbstractMember
  | constructorNameMismatch
  | abstractMethodOutsideAbstractClass
  | interfaceMethodCannotBeAbstract
  | abstractMethodCannotHaveImplementation
  | methodMustHaveImplementation
  | constructorTopLevelReturn
  | methodMustReturnValue
  | abstractFieldOutsideAbstractClass
  | abstractFieldCannotHaveValue
  | unexpectedReturn
  | expectedReturnType
  | constructorsCannotReturnValues
  | unreachableCode
  | cannotReassignFinalValue
  | cannotReassignFinalMember
  | invalidAssignment
  | invalidExpression
  | invalidOperator
  | cannotCast
  | invalidFunctionArguments
  | notAFunction
  | invalidConstructorArguments
  | notConstructable
  | instanceMethodInStaticContext
  | memberNotFound
  | typeHasNoProperties
  | invalidArrayIndexType
  | instanceMemberOnStaticClass
  | privateMemberAccess
  | protectedMemberAccess
  | thisInStaticContext
  | noSupertypes
  | invalidImportName
  | missingPackage
  | cannotReadFile
  | cannotWriteFile
  | invalidConfigFile
  deriving DecidableEq, Repr

namespace Code

/-- Every kind of problem, by number. -/
def all : List Code := [
  .unexpectedCharacter, .unexpectedToken, .unknownIdentifier, .typeIsNotAssignableToType,
  .classCannotExtendNonClass, .classCannotBeExtended, .classCannotImplementNonInterface,
  .classMustImplementAbstractMember, .constructorNameMismatch,
  .abstractMethodOutsideAbstractClass, .interfaceMethodCannotBeAbstract,
  .abstractMethodCannotHaveImplementation, .methodMustHaveImplementation,
  .constructorTopLevelReturn, .methodMustReturnValue, .abstractFieldOutsideAbstractClass,
  .abstractFieldCannotHaveValue, .unexpectedReturn, .expectedReturnType,
  .constructorsCannotReturnValues, .unreachableCode, .cannotReassignFinalValue,
  .cannotReassignFinalMember, .invalidAssignment, .invalidExpression, .invalidOperator,
  .cannotCast, .invalidFunctionArguments, .notAFunction, .invalidConstructorArguments,
  .notConstructable, .instanceMethodInStaticContext, .memberNotFound, .typeHasNoProperties,
  .invalidArrayIndexType, .instanceMemberOnStaticClass, .privateMemberAccess,
  .protectedMemberAccess, .thisInStaticContext, .noSupertypes, .invalidImportName,
  .missingPackage, .cannotReadFile, .cannotWriteFile, .invalidConfigFile]

/-- The number a problem is reported under. -/
def number : Code → Nat
  | .unexpectedCharacter => 1001
  | .unexpectedToken => 1101
  | .unknownIdentifier => 2001
  | .typeIsNotAssignableToType => 2002
  | .classCannotExtendNonClass => 2003
  | .classCannotBeExtended => 2004
  | .classCannotImplementNonInterface => 2005
  | .classMustImplementAbstractMember => 2006
  | .constructorNameMismatch => 2007
  | .abstractMethodOutsideAbstractClass => 2008
  | .interfaceMethodCannotBeAbstract => 2009
  | .abstractMethodCannotHaveImplementation => 2010
  | .methodMustHaveImplementation => 2011
  | .constructorTopLevelReturn => 2012
  | .methodMustReturnValue => 2013
  | .abstractFieldOutsideAbstractClass => 2014
  | .abstractFieldCannotHaveValue => 2015
  | .unexpectedReturn => 2016
  | .expectedReturnType => 2017
  | .constructorsCannotReturnValues => 2018
  | .unreachableCode => 2019
  | .cannotReassignFinalValue => 2020
  | .cannotReassignFinalMember => 2021
  | .invalidAssignment => 2022
  | .invalidExpression => 2023
  | .invalidOperator => 2024
  | .cannotCast => 2025
  | .invalidFunctionArguments => 2026
  | .notAFunction => 2027
  | .invalidConstructorArguments => 2028
  | .notConstructable => 2029
  | .instanceMethodInStaticContext => 2030
  | .memberNotFound => 2031
  | .typeHasNoProperties => 2032
  | .invalidArrayIndexType => 2033
  | .instanceMemberOnStaticClass => 2034
  | .privateMemberAccess => 2035
  | .protectedMemberAccess => 2036
  | .thisInStaticContext => 2037
  | .noSupertypes => 2038
  | .invalidImportName => 2039
  | .missingPackage => 2040
  | .cannotReadFile => 5001
  | .cannotWriteFile => 5002
  | .invalidConfigFile => 5003

/-- The message template of a problem. -/
def template : Code → String
  | .unexpectedCharacter => "Unexpected character '\x7b0\x7d'."
  | .unexpectedToken => "\x7b0\x7d"
  | .unknownIdentifier => "Unknown identifier '\x7b0\x7d'"
  | .typeIsNotAssignableToType => "'\x7b0\x7d' is not assignable to '\x7b1\x7d'"
  | .classCannotExtendNonClass => "Class '\x7b0\x7d' cannot extend non-class '\x7b1\x7d'"
  | .classCannotBeExtended => "Class '\x7b0\x7d' cannot be extended by '\x7b1\x7d'"
  | .classCannotImplementNonInterface =>
    "Class '\x7b0\x7d' cannot implement non-interface '\x7b1\x7d'"
  | .classMustImplementAbstractMember =>
    "Class '\x7b0\x7d' must implement abstract member '\x7b1\x7d'"
  | .constructorNameMismatch =>
    "Constructor '\x7b0\x7d' must match the name of its class, '\x7b1\x7d'"
  | .abstractMethodOutsideAbstractClass => "Abstract methods are only allowed in abstract classes"
  | .interfaceMethodCannotBeAbstract => "Interface method '\x7b0\x7d' cannot be abstract"
  | .abstractMethodCannotHaveImplementation =>
    "Abstract method '\x7b0\x7d' cannot have an implementation"
  | .methodMustHaveImplementation => "Non-abstract method '\x7b0\x7d' must have an implementation"
  | .constructorTopLevelReturn =>
    "Return statements are not allowed in the top-level block of a constructor"
  | .methodMustReturnValue => "Method '\x7b0\x7d' must return a value of type '\x7b1\x7d'"
  | .abstractFieldOutsideAbstractClass => "Abstract fields are only allowed in abstract classes"
  | .abstractFieldCannotHaveValue => "Abstract fields cannot have values"
  | .unexpectedReturn => "Unexpected return"
  | .expectedReturnType => "Expected a return type of '\x7b0\x7d'"
  | .constructorsCannotReturnValues => "Constructors cannot return values"
  | .unreachableCode => "Unreachable code"
  | .cannotReassignFinalValue => "Cannot reassign final value '\x7b0\x7d'"
  | .cannotReassignFinalMember => "Cannot reassign final member '\x7b0\x7d'"
  | .invalidAssignment => "Invalid assignment"
  | .invalidExpression => "Invalid expression"
  | .invalidOperator => "Invalid operator '\x7b0\x7d' for '\x7b1\x7d'"
  | .cannotCast => "Cannot cast '\x7b0\x7d' to '\x7b1\x7d'"
  | .invalidFunctionArguments => "Invalid arguments for function '\x7b0\x7d': \x7b1\x7d"
  | .notAFunction => "'\x7b0\x7d' is not a function"
  | .invalidConstructorArguments => "Invalid constructor arguments \x7b0\x7d"
  | .notConstructable => "'\x7b0\x7d' is not constructable"
  | .instanceMethodInStaticContext =>
    "Instance methods cannot be called in static methods or initializers"
  | .memberNotFound => "Member '\x7b0\x7d' not found on '\x7b1\x7d'"
  | .typeHasNoProperties => "'\x7b0\x7d' does not have any properties"
  | .invalidArrayIndexType => "Invalid array index type '\x7b0\x7d'"
  | .instanceMemberOnStaticClass =>
    "Instance member '\x7b0\x7d' cannot be accessed on static class '\x7b1\x7d'"
  | .privateMemberAccess => "Private member '\x7b0\x7d' is only accessible inside '\x7b1\x7d'"
  | .protectedMemberAccess =>
    "Protected member '\x7b0\x7d' is only accessible inside '\x7b1\x7d' and its subclasses"
  | .thisInStaticContext => "'this' is not allowed in static methods or initializers"
  | .noSupertypes => "'\x7b0\x7d' doesn't have any supertypes"
  | .invalidImportName => "Invalid import name: '\x7b0\x7d'"
  | .missingPackage => "Java files must contain a package"
  | .cannotReadFile => "Cannot read file '\x7b0\x7d': \x7b1\x7d"
  | .cannotWriteFile => "Cannot write file '\x7b0\x7d': \x7b1\x7d"
  | .invalidConfigFile => "Invalid configuration file '\x7b0\x7d': \x7b1\x7d"

/-- How serious a problem is. -/
def severity : Code → Severity
  | .missingPackage => .warning
  | _ => .error

/-- The kind of problem with a number. -/
def ofNumber? (number : Nat) : Option Code := all.find? (·.number == number)

end Code
end Javascribe

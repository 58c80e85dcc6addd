/-
# Operators

The operators of expressions, how they are written and how tightly they
bind. Assignments bind weakest and group to the right; the operators that
may stand without a left operand bind like unary ones there.

Key definitions: `Operator`, `Operator.symbol`, `Operator.precedence`,
`Operator.compound?`.
-/

namespace Javascribe

/-- The operators. -/
inductive Operator where
  | assign
  | addAssign
  | subtractAssign
  | multiplyAssign
  | divideAssign
  | remainderAssign
  | bitAndAssign
  | bitOrAssign
  | bitXorAssign
  | shiftLeftAssign
  | shiftRightAssign
  | shiftRightUnsignedAssign
  | add
  | subtract
  | multiply
  | divide
  | remainder
  | increment
  | decrement
  | equal
  | notEqual
  | less
  | lessOrEqual
  | greater
  | greaterOrEqual
  | and
  | or
  | bitAnd
  | bitOr
  | bitXor
  | complement
  | not
  | shiftLeft
  | shiftRight
  | shiftRightUnsigned
  | elvis
  | instanceOf
  deriving DecidableEq, Repr

namespace Operator

/-- How an operator is written. -/
def symbol : Operator → String
  | .assign => "="
  | .addAssign => "+="
  | .subtractAssign => "-="
  | .multiplyAssign => "*="
  | .divideAssign => "/="
  | .remainderAssign => "%="
  | .bitAndAssign => "&="
  | .bitOrAssign => "|="
  | .bitXorAssign => "^="
  | .shiftLeftAssign => "<<="
  | .shiftRightAssign => ">>="
  | .shiftRightUnsignedAssign => ">>>="
  | .add => "+"
  | .subtract => "-"
  | .multiply => "*"
  | .divide => "/"
  | .remainder => "%"
  | .increment => "++"
  | .decrement => "--"
  | .equal => "=="
  | .notEqual => "!="
  | .less => "<"
  | .lessOrEqual => "<="
  | .greater => ">"
  | .greaterOrEqual => ">="
  | .and => "&&"
  | .or => "||"
  | .bitAnd => "&"
  | .bitOr => "|"
  | .bitXor => "^"
  | .complement => "~"
  | .not => "!"
  | .shiftLeft => "<<"
  | .shiftRight => ">>"
  | .shiftRightUnsigned => ">>>"
  | .elvis => "?:"
  | .instanceOf => "instanceof"

/-- How tightly an operator without a left operand binds. -/
def unaryPrecedence : Nat := 13

/-- How tightly an operator binds between two operands; more is tighter. -/
def precedence : Operator → Nat
  | .increment | .decrement => 14
  | .not | .complement => unaryPrecedence
  | .multiply | .divide | .remainder => 12
  | .add | .subtract => 11
  | .shiftLeft | .shiftRight | .shiftRightUnsigned => 10
  | .less | .lessOrEqual | .greater | .greaterOrEqual | .instanceOf => 9
  | .equal | .notEqual => 8
  | .bitAnd => 7
  | .bitXor => 6
  | .bitOr => 5
  | .and => 4
  | .or => 3
  | .elvis => 2
  | .assign | .addAssign | .subtractAssign | .multiplyAssign | .divideAssign | .remainderAssign
  | .bitAndAssign | .bitOrAssign | .bitXorAssign | .shiftLeftAssign | .shiftRightAssign
  | .shiftRightUnsignedAssign => 1

/-- Whether an operator assigns to its left operand. -/
def isAssignment (operator : Operator) : Bool := operator.precedence == 1

/-- For a compound assignment, what is applied before assigning. -/
def compound? : Operator → Option Operator
  | .addAssign => some .add
  | .subtractAssign => some .subtract
  | .multiplyAssign => some .multiply
  | .divideAssign => some .divide
  | .remainderAssign => some .remainder
  | .bitAndAssign => some .bitAnd
  | .bitOrAssign => some .bitOr
  | .bitXorAssign => some .bitXor
  | .shiftLeftAssign => some .shiftLeft
  | .shiftRightAssign => some .shiftRight
  | .shiftRightUnsignedAssign => some .shiftRightUnsigned
  | _ => none

/-- Whether an operator may stand without a left operand. -/
def isUnary : Operator → Bool
  | .not | .complement | .add | .subtract | .increment | .decrement => true
  | _ => false

/-- Whether an operator steps its operand by one. -/
def isStep : Operator → Bool
  | .increment | .decrement => true
  | _ => false

/-- Whether an operator compares the order of two numbers. -/
def isComparison : Operator → Bool
  | .less | .lessOrEqual | .greater | .greaterOrEqual => true
  | _ => false

/-- Whether an operator tests equality. -/
def isEquality : Operator → Bool
  | .equal | .notEqual => true
  | _ => false

/-- Whether an operator takes truth values. -/
def isLogical : Operator → Bool
  | .and | .or | .not => true
  | _ => false

end Operator
end Javascribe

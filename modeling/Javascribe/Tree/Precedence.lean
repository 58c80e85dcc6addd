/-
# Precedence

What follows an operator is read as one statement, so `a * b + c` is first
seen as `a * (b + c)`. Attaching the operator rotates that shape: an
ungrouped right side whose own operator binds no tighter is split, and its
first operand goes to the left. Assignments never rotate, so they group to
the right. A ternary on the right takes the operation into its condition.

Casts go to the first operand in the same way: `(T) a + b` casts `a` only.

Key definitions: `Tree.combine`, `Tree.applyCast`.
-/
import Javascribe.Tree.Basic

namespace Javascribe
namespace Tree

/-- How tightly an operator binds; without a left operand those that can
stand so bind like unary ones. -/
def binding (operation : Operator) (hasLeft : Bool) : Nat :=
  if !hasLeft && operation.isUnary then Operator.unaryPrecedence else operation.precedence

/-- Whether the grouping of a statement is written in the source. -/
def Statement.isGrouped (statement : Statement) : Bool :=
  statement.isParenthesized || statement.cast.isSome

/-- `left operator right` as it stands. -/
def attach (left : Option Node) (operator : OperatorUse) (right : Statement) (token : Nat) :
    Statement :=
  { Statement.empty token with left := left, operator := some operator, right := some right }

/-- Whether an operator takes the first operand of the statement after it. -/
def rotates (left : Option Node) (operator : OperatorUse) (next : OperatorUse) : Bool :=
  next.operation.precedence ≤ binding operator.operation left.isSome

mutual

/-- Attaches `left operator` to the statement after it. -/
def combine (left : Option Node) (operator : OperatorUse) (token : Nat) : Statement → Statement
  | ⟨node?, operator?, right?, isParenthesized, cast, annotations, start⟩ =>
    let right : Statement := ⟨node?, operator?, right?, isParenthesized, cast, annotations, start⟩
    if operator.operation.isAssignment || right.isGrouped then attach left operator right token
    else
      match node?, operator?, right? with
      | some (.ternary ⟨condition, yes, no, _⟩), none, _ =>
        .ofNode (.ternary ⟨combine left operator token condition, yes, no, token⟩) token
      | some node, some next, some rest =>
        if rotates left operator next then
          { Statement.empty token with
            left := some (.statement (combineOperand left operator token start node))
            operator := some next
            right := some rest }
        else attach left operator right token
      | _, _, _ => attach left operator right token

/-- Attaches `left operator` to the first operand of a statement that starts at `start`. -/
def combineOperand (left : Option Node) (operator : OperatorUse) (token start : Nat) :
    Node → Statement
  | .statement s =>
    if s.isGrouped then attach left operator (.ofNode (.statement s) start) token
    else combine left operator token s
  | .ternary ⟨condition, yes, no, _⟩ =>
    .ofNode (.ternary ⟨combine left operator token condition, yes, no, token⟩) token
  | node => attach left operator (.ofNode node start) token

end

mutual

/-- Casts the first operand of a statement. -/
def applyCast (type : TypeRef) (token : Nat) : Statement → Statement
  | ⟨node?, operator?, right?, isParenthesized, cast, annotations, start⟩ =>
    let value : Statement := ⟨node?, operator?, right?, isParenthesized, cast, annotations, start⟩
    let whole : Statement :=
      if value.isSimple && !isParenthesized then
        { Statement.empty token with left := node?, cast := some type }
      else { Statement.ofNode (.statement value) token with cast := some type }
    match node?, operator?, right? with
    | some node, some operator, some right =>
      if value.isGrouped || operator.operation.isAssignment then whole
      else
        ⟨some (.statement (castOperand type token node)), some operator, some right,
          isParenthesized, cast, annotations, token⟩
    | _, _, _ => whole

/-- Casts an operand. -/
def castOperand (type : TypeRef) (token : Nat) : Node → Statement
  | .statement s =>
    if s.isGrouped then { Statement.ofNode (.statement s) token with cast := some type }
    else applyCast type token s
  | node => { Statement.ofNode node token with cast := some type }

end

end Tree
end Javascribe

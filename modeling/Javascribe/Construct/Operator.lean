/-
# Operators

Symbols are tokens of their own, so an operator of several symbols is put
together from tokens with nothing between them. The longest one is taken.

Key definitions: `Construct.operator`.
-/
import Javascribe.Parser.Production

namespace Javascribe
namespace Construct

open Javascribe.Parser

/-- The operators that start with a token, longest first, with the tokens after it. -/
def operatorsFrom : String → List (List String × Operator)
  | "=" => [(["="], .equal), ([], .assign)]
  | "+" => [(["+"], .increment), (["="], .addAssign), ([], .add)]
  | "-" => [(["-"], .decrement), (["="], .subtractAssign), ([], .subtract)]
  | "*" => [(["="], .multiplyAssign), ([], .multiply)]
  | "/" => [(["="], .divideAssign), ([], .divide)]
  | "%" => [(["="], .remainderAssign), ([], .remainder)]
  | "!" => [(["="], .notEqual), ([], .not)]
  | "~" => [([], .complement)]
  | "?" => [([":"], .elvis)]
  | "<" =>
    [(["<", "="], .shiftLeftAssign), (["<"], .shiftLeft), (["="], .lessOrEqual), ([], .less)]
  | ">" =>
    [([">", ">", "="], .shiftRightUnsignedAssign), ([">", ">"], .shiftRightUnsigned),
      ([">", "="], .shiftRightAssign), ([">"], .shiftRight), (["="], .greaterOrEqual),
      ([], .greater)]
  | "|" => [(["|"], .or), (["="], .bitOrAssign), ([], .bitOr)]
  | "&" => [(["&"], .and), (["="], .bitAndAssign), ([], .bitAnd)]
  | "^" => [(["="], .bitXorAssign), ([], .bitXor)]
  | "instanceof" => [([], .instanceOf)]
  | _ => []

/-- Whether the tokens after `id` are `values`, with nothing between them. -/
def continuesWith (tokens : TokenStream) : Nat → List String → Bool
  | _, [] => true
  | id, value :: values =>
    let next := tokens.next id
    tokens.value next == value && tokens.areAdjacent id next && continuesWith tokens next values

/-- An operator. -/
def operator : Parser Tree.OperatorUse := construct fun token => do
  let cursor ← get
  match (operatorsFrom cursor.value).find? fun (rest, _) =>
      continuesWith cursor.tokens cursor.current rest with
  | none => fail .invalidOperator
  | some (rest, operation) =>
    rest.forM fun _ => advanceRaw
    next
    return ⟨operation, token⟩

end Construct
end Javascribe

/-
# Phrases

A phrase is an expression in the order in which it is read: a first operand
with the steps behind it, then nothing, an operator and a phrase, or the two
phrases of a conditional expression; or an operator and the phrase it stands
before. Putting the operators in their place gives the expression of a
phrase; the text of the phrase is the text of the expression
(`Phrase.pieces_expr`).

Key definitions: `Phrase`, `Head`, `Phrase.expr`, `Phrase.pieces`,
`Phrase.IsSound`, `Phrase.height`.
Key theorems: `Phrase.pieces_expr`.
-/
import Javascribe.Construct.Literal
import Javascribe.Construct.Operator
import Javascribe.Proofs.Expression
import Javascribe.Token.Scan

namespace Javascribe

mutual

/-- An expression as it is read. -/
inductive Phrase where
  | empty
  | signed (operation : Operator) (rest : Phrase)
  | value (head : Head)
  | stepped (head : Head) (operation : Operator)
  | binary (head : Head) (operation : Operator) (rest : Phrase)
  | ternary (head : Head) (yes no : Phrase)

/-- A first operand, with the steps behind it that are not the end of the phrase. -/
inductive Head where
  | name (name : String)
  | number (digits tail : String)
  | group (inner : Phrase)
  | step (head : Head) (operation : Operator)

end

/-- The tokens of an operator. -/
def Operator.words (operation : Operator) : List String :=
  if operation = .instanceOf then ["instanceof"]
  else operation.symbol.toList.map String.singleton

/-- The expression in parentheses. -/
def Expr.grouped : Expr → Expr
  | .mk left rest _ => .mk left rest true

mutual

/-- The expression of a phrase. -/
def Phrase.expr : Phrase → Expr
  | .empty => Operand.absent.alone
  | .signed operation rest => Expr.combine .absent operation rest.expr
  | .value head => head.operand.alone
  | .stepped head operation => .mk head.operand (.step operation) false
  | .binary head operation rest => Expr.combine head.operand operation rest.expr
  | .ternary head yes no => (Operand.ternary head.operand.alone yes.expr no.expr).alone

/-- The operand that a head is. -/
def Head.operand : Head → Operand
  | .name name => .name name
  | .number digits tail => .number (digits ++ tail)
  | .group inner => .statement inner.expr.grouped
  | .step head operation => .statement (.mk head.operand (.step operation) false)

end

mutual

/-- The pieces of text of a phrase. -/
def Phrase.pieces : Phrase → List String
  | .empty => []
  | .signed operation rest => operation.symbol :: rest.pieces
  | .value head => head.pieces
  | .stepped head operation => head.pieces ++ [operation.symbol]
  | .binary head operation rest => head.pieces ++ [" ", operation.symbol, " "] ++ rest.pieces
  | .ternary head yes no => head.pieces ++ " ? " :: yes.pieces ++ " : " :: no.pieces

/-- The pieces of text of a head. -/
def Head.pieces : Head → List String
  | .name name => [name]
  | .number digits tail => [digits ++ tail]
  | .group inner => "(" :: inner.pieces ++ [")"]
  | .step head operation => head.pieces ++ [operation.symbol]

end

mutual

/-- How deep parsers are nested when a phrase is read. -/
def Phrase.height : Phrase → Nat
  | .empty => 1
  | .signed _ rest => 1 + max 1 rest.height
  | .value head => head.height
  | .stepped head _ => max head.height 2
  | .binary head _ rest => max head.height (1 + max 1 rest.height)
  | .ternary head yes no => max head.height (1 + max yes.height no.height)

/-- How deep parsers are nested when a phrase that starts with a head is read. -/
def Head.height : Head → Nat
  | .name _ => 2
  | .number _ _ => 2
  | .group inner => 1 + inner.height
  | .step head _ => max head.height 2

end

theorem Head.height_pos (head : Head) : 0 < head.height := by
  cases head <;> rw [Head.height] <;> omega

theorem Phrase.height_pos (p : Phrase) : 0 < p.height := by
  cases p with
  | value head => exact head.height_pos
  | empty | signed | stepped | binary | ternary => rw [Phrase.height]; omega

/-! ### The text of a phrase -/

/-- Whether an expression stands in parentheses. -/
def Expr.isParenthesized : Expr → Bool
  | .mk _ _ isParenthesized => isParenthesized

theorem Expr.isParenthesized_combine (left : Operand) (operation : Operator) (right : Expr) :
    (Expr.combine left operation right).isParenthesized = false := by
  obtain ⟨first, rest, isParenthesized⟩ := right
  rw [Expr.combine.eq_def]
  repeat' split
  all_goals rfl

theorem Phrase.isParenthesized_expr (p : Phrase) : p.expr.isParenthesized = false := by
  cases p <;> rw [Phrase.expr] <;> first | rfl | exact Expr.isParenthesized_combine ..

theorem Expr.pieces_grouped {x : Expr} (h : x.isParenthesized = false) :
    x.grouped.pieces = "(" :: x.pieces ++ [")"] := by
  obtain ⟨left, rest, isParenthesized⟩ := x
  obtain rfl : isParenthesized = false := h
  rw [Expr.grouped, Expr.pieces, Expr.pieces]
  rfl

theorem Head.isPresent_operand (head : Head) : head.operand.isPresent = true := by
  cases head <;> (rw [Head.operand]; rfl)

mutual

/-- The text of a phrase is the text of its expression. -/
theorem Phrase.pieces_expr : (p : Phrase) → p.expr.pieces = p.pieces
  | .empty => by rw [Phrase.expr, Phrase.pieces, Expr.pieces_alone, Operand.pieces]
  | .signed operation rest => by
    rw [Phrase.expr, Phrase.pieces, Expr.pieces_combine, Operand.pieces, rest.pieces_expr]
    rfl
  | .value head => by rw [Phrase.expr, Phrase.pieces, Expr.pieces_alone, head.pieces_operand]
  | .stepped head operation => by
    rw [Phrase.expr, Phrase.pieces, Expr.pieces, Rest.pieces, head.pieces_operand]
    rfl
  | .binary head operation rest => by
    rw [Phrase.expr, Phrase.pieces, Expr.pieces_combine, head.pieces_operand, rest.pieces_expr,
      head.isPresent_operand]
    rfl
  | .ternary head yes no => by
    rw [Phrase.expr, Phrase.pieces, Expr.pieces_alone, Operand.pieces, Expr.pieces_alone,
      head.pieces_operand, yes.pieces_expr, no.pieces_expr]

theorem Head.pieces_operand : (head : Head) → head.operand.pieces = head.pieces
  | .name name => by rw [Head.operand, Head.pieces, Operand.pieces]
  | .number digits tail => by rw [Head.operand, Head.pieces, Operand.pieces]
  | .group inner => by
    rw [Head.operand, Head.pieces, Operand.pieces,
      Expr.pieces_grouped inner.isParenthesized_expr, inner.pieces_expr]
  | .step head operation => by
    rw [Head.operand, Head.pieces, Operand.pieces, Expr.pieces, Rest.pieces, head.pieces_operand]
    rfl

end

/-! ### Parts that can be read -/

/-- The text of one token of a class. -/
def CharClass.IsToken (k : CharClass) (text : String) : Prop :=
  ∃ c cs, of? c = some k ∧ (∀ d ∈ cs, k.continues d = true) ∧ text.toList = c :: cs

/-- A word that can stand alone as a value. -/
structure IsName (name : String) : Prop where
  isToken : CharClass.word.IsToken name
  not_instruction : Keyword.instructions.contains name = false
  not_assertion : name ≠ "assert"
  not_value : Keyword.values.contains name = false

/-- The digits of a number, and the word right behind them that is kept. -/
structure IsNumber (digits tail : String) : Prop where
  isToken : CharClass.number.IsToken digits
  tail : tail = "" ∨ CharClass.word.IsToken tail ∧ Construct.numberTail? digits tail = some tail

/-- The signs with which an operator before its operand starts. -/
def signs : List String := ["!", "+", "-", "~"]

/-- Whether an operator can stand before its operand. -/
def Operator.isSign (operation : Operator) : Bool :=
  operation.isShared && operation.words.head?.any signs.contains

/-- Whether a head has no steps. -/
def Head.isPlain : Head → Bool
  | .step _ _ => false
  | _ => true

/-- Whether there is something in a phrase. -/
def Phrase.isPresent : Phrase → Bool
  | .empty => false
  | _ => true

mutual

/-- Whether the parts of a phrase are such as can be read. -/
def Phrase.IsSound : Phrase → Prop
  | .empty => True
  | .signed operation rest => operation.isSign = true ∧ rest.isPresent = true ∧ rest.IsSound
  | .value head => head.isPlain = true ∧ head.IsSound
  | .stepped head operation => head.IsSound ∧ operation.isStep = true
  | .binary head operation rest =>
    head.IsSound ∧ operation.isShared = true ∧ operation.isStep = false ∧ rest.isPresent = true ∧
      rest.IsSound
  | .ternary head yes no => head.IsSound ∧ yes.IsSound ∧ no.IsSound

/-- Whether the parts of a head are such as can be read. -/
def Head.IsSound : Head → Prop
  | .name name => IsName name
  | .number digits tail => IsNumber digits tail
  | .group inner => inner.IsSound
  | .step head operation => head.IsSound ∧ operation.isStep = true

end

end Javascribe

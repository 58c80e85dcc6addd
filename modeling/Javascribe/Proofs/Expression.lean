/-
# Expressions without their places

Names, numbers, groups, operators and conditional expressions are read into
statements that keep the token of every part. An expression is what is left
of such a statement without the tokens (`Statement.expr?`); two statements
with one expression are the same up to tokens
(`Statement.withoutTokens_of_expr?`). It has only operators that are written
alike in both languages.

What is written depends on the expression alone (`Emit.statement_of_expr?`),
and so does attaching an operator (`expr?_combine`). Attaching never moves
anything in the text (`Expr.pieces_combine`).

Key definitions: `Expr`, `Operand`, `Statement.expr?`, `Expr.pieces`,
`Expr.combine`, `ExprCases`.
Key theorems: `Emit.statement_of_expr?`, `Statement.withoutTokens_of_expr?`,
`expr?_combine`, `expr?_of_combine`, `Expr.pieces_combine`.
-/
import Javascribe.Output.Emit
import Javascribe.Proofs.Precedence

namespace Javascribe

/-- Whether an operator is written as it is read. -/
def Operator.isShared (operation : Operator) : Bool := operation.hostSymbol == operation.symbol

mutual

/-- A statement without the tokens of its parts. -/
inductive Expr where
  | mk (left : Operand) (rest : Rest) (isParenthesized : Bool)

/-- What follows the left side: nothing, an operator, or an operator and a right side. -/
inductive Rest where
  | none
  | step (operation : Operator)
  | operation (operation : Operator) (right : Expr)

/-- A left side without the tokens of its parts. -/
inductive Operand where
  | absent
  | name (name : String)
  | number (value : String)
  | statement (inner : Expr)
  | ternary (condition yes no : Expr)

end

namespace Tree

section Reading

variable (strict : Bool)

mutual

/-- The expression that a statement is, if its parts are names, numbers,
groups, shared operators and conditional expressions. A strict reading takes
neither annotations nor a right side without an operator; otherwise they are
passed over. -/
def Statement.expr? : Statement → Option Expr
  | ⟨left, operator, right, isParenthesized, cast, annotations, _⟩ =>
    if cast.isSome || (strict && !annotations.isEmpty) then none
    else
      match leftOperand? left, rest? operator right with
      | some left, some rest => some (.mk left rest isParenthesized)
      | _, _ => none

/-- The operand that a left side is. -/
def leftOperand? : Option Node → Option Operand
  | none => some .absent
  | some node => node.operand?

/-- What follows the left side. -/
def rest? : Option OperatorUse → Option Statement → Option Rest
  | none, none => some .none
  | none, some _ => if strict then none else some .none
  | some use, none => if use.operation.isShared then some (.step use.operation) else none
  | some use, some right =>
    if use.operation.isShared then right.expr?.map (.operation use.operation) else none

/-- The operand that a node is. -/
def Node.operand? : Node → Option Operand
  | .reference r => some (.name r.name)
  | .literal ⟨kind, value, elements, _⟩ =>
    if kind == .number && elements.isEmpty then some (.number value) else none
  | .statement s => s.expr?.map .statement
  | .ternary ⟨condition, yes, no, _⟩ =>
    match condition.expr?, yes.expr?, no.expr? with
    | some condition, some yes, some no => some (.ternary condition yes no)
    | _, _, _ => none
  | _ => none

end

end Reading

/-! ### Statements that are expressions -/

section Inversion

variable {strict : Bool} {s : Statement}

theorem Statement.expr?_eq_some {x : Expr} :
    s.expr? strict = some x ↔ s.cast = none ∧ (strict = true → s.annotations = []) ∧
      ∃ l r, leftOperand? strict s.left = some l ∧ rest? strict s.operator s.right = some r ∧
        x = .mk l r s.isParenthesized := by
  obtain ⟨left, operator, right, isParenthesized, cast, annotations, token⟩ := s
  have bare : (strict && !annotations.isEmpty) = false ↔ (strict = true → annotations = []) := by
    cases strict <;> cases annotations <;> simp
  rw [Statement.expr?]
  constructor
  · intro h
    split at h
    · cases h
    · rename_i plain
      rw [Bool.or_eq_true, not_or, Bool.not_eq_true, Bool.not_eq_true,
        Option.isSome_eq_false_iff, Option.isNone_iff_eq_none, bare] at plain
      split at h
      · rename_i l r hl hr
        cases h
        exact ⟨plain.1, plain.2, l, r, hl, hr, rfl⟩
      · cases h
  · rintro ⟨hCast, hBare, l, r, hl, hr, rfl⟩
    simp only at hCast hBare hl hr
    subst hCast
    rw [← bare] at hBare
    simp [hBare, hl, hr]

theorem operand?_statement_eq_some {l : Operand} :
    (Node.statement s).operand? strict = some l ↔ ∃ x, s.expr? strict = some x ∧ l = .statement x := by
  rw [Node.operand?, Option.map_eq_some_iff]
  exact exists_congr fun x => and_congr_right fun _ => eq_comm

theorem operand?_ternary_eq_some {condition yes no : Statement} {token : Nat} {l : Operand} :
    (Node.ternary ⟨condition, yes, no, token⟩).operand? strict = some l ↔
      ∃ c y n, condition.expr? strict = some c ∧ yes.expr? strict = some y ∧
        no.expr? strict = some n ∧ l = .ternary c y n := by
  rw [Node.operand?]
  constructor
  · intro h
    split at h
    · rename_i c y n hc hy hn
      cases h
      exact ⟨c, y, n, hc, hy, hn, rfl⟩
    · cases h
  · rintro ⟨c, y, n, hc, hy, hn, rfl⟩
    rw [hc, hy, hn]

theorem operand?_literal_eq_some {literal : Literal} {l : Operand} :
    (Node.literal literal).operand? strict = some l ↔
      (literal.kind = .number ∧ literal.elements = []) ∧ l = .number literal.value := by
  obtain ⟨kind, value, elements, token⟩ := literal
  have test : (kind == .number && elements.isEmpty) = true ↔ kind = .number ∧ elements = [] := by
    rw [Bool.and_eq_true, beq_iff_eq, List.isEmpty_iff]
  rw [Node.operand?]
  by_cases isNumber : (kind == .number && elements.isEmpty) = true
  · rw [if_pos isNumber, Option.some_inj]
    exact ⟨fun h => ⟨test.mp isNumber, h.symm⟩, fun h => h.2.symm⟩
  · rw [if_neg isNumber]
    exact ⟨nofun, fun h => absurd (test.mpr h.1) isNumber⟩

theorem rest?_operation_eq_some {use : OperatorUse} {right : Statement} {r : Rest} :
    rest? strict (some use) (some right) = some r ↔ use.operation.isShared = true ∧
      ∃ x, right.expr? strict = some x ∧ r = .operation use.operation x := by
  rw [rest?]
  split
  · rename_i shared
    rw [Option.map_eq_some_iff]
    exact ⟨fun ⟨x, hx, h⟩ => ⟨shared, x, hx, h.symm⟩, fun ⟨_, x, hx, h⟩ => ⟨x, hx, h.symm⟩⟩
  · rename_i differs
    exact ⟨nofun, fun h => absurd h.1 differs⟩

theorem rest?_step_eq_some {use : OperatorUse} {r : Rest} :
    rest? strict (some use) none = some r ↔
      use.operation.isShared = true ∧ r = .step use.operation := by
  rw [rest?]
  split
  · rename_i shared
    rw [Option.some_inj]
    exact ⟨fun h => ⟨shared, h.symm⟩, fun h => h.2.symm⟩
  · rename_i differs
    exact ⟨nofun, fun h => absurd h.1 differs⟩

theorem rest?_none_none : rest? strict none none = some .none := by rw [rest?]

end Inversion

/-! ### Induction on a strict reading -/

/-- What follows for an expression from what follows for its parts, one case for
each way to build one. -/
structure ExprCases (P : Statement → Expr → Prop) (L : Option Node → Operand → Prop)
    (R : Option OperatorUse → Option Statement → Rest → Prop) : Prop where
  whole {left operator right l r} isParenthesized token : L left l → R operator right r →
    P ⟨left, operator, right, isParenthesized, none, [], token⟩ (.mk l r isParenthesized)
  absent : L none .absent
  name r : L (some (.reference r)) (.name r.name)
  number value token : L (some (.literal ⟨.number, value, [], token⟩)) (.number value)
  statement {s x} : P s x → L (some (.statement s)) (.statement x)
  ternary {condition yes no c y n} token : P condition c → P yes y → P no n →
    L (some (.ternary ⟨condition, yes, no, token⟩)) (.ternary c y n)
  nothing : R none none .none
  step {use} : use.operation.isShared = true → R (some use) none (.step use.operation)
  operation {use s x} : use.operation.isShared = true → P s x →
    R (some use) (some s) (.operation use.operation x)

namespace ExprCases

variable {P : Statement → Expr → Prop} {L : Option Node → Operand → Prop}
  {R : Option OperatorUse → Option Statement → Rest → Prop} (cases : ExprCases P L R)
include cases

mutual

/-- A statement and its expression are built alike. -/
theorem of_expr? : (s : Statement) → {x : Expr} → s.expr? true = some x → P s x
  | ⟨left, operator, right, isParenthesized, cast, annotations, token⟩, x, h => by
    obtain ⟨rfl, bare, l, r, hl, hr, rfl⟩ := Statement.expr?_eq_some.mp h
    obtain rfl : annotations = [] := bare rfl
    exact cases.whole isParenthesized token (of_leftOperand? left hl) (of_rest? operator right hr)

theorem of_leftOperand? : (left : Option Node) → {l : Operand} →
    leftOperand? true left = some l → L left l
  | none, l, h => by
    rw [leftOperand?] at h
    cases h
    exact cases.absent
  | some node, l, h => by
    rw [leftOperand?] at h
    exact of_operand? node h

theorem of_rest? : (operator : Option OperatorUse) → (right : Option Statement) →
    {r : Rest} → rest? true operator right = some r → R operator right r
  | none, none, r, h => by
    rw [rest?] at h
    cases h
    exact cases.nothing
  | none, some _, r, h => by
    rw [rest?] at h
    cases h
  | some use, none, r, h => by
    obtain ⟨shared, rfl⟩ := rest?_step_eq_some.mp h
    exact cases.step shared
  | some use, some s, r, h => by
    obtain ⟨shared, x, hx, rfl⟩ := rest?_operation_eq_some.mp h
    exact cases.operation shared (of_expr? s hx)

theorem of_operand? : (node : Node) → {l : Operand} → node.operand? true = some l →
    L (some node) l
  | .reference r, l, h => by
    rw [Node.operand?] at h
    cases h
    exact cases.name r
  | .literal ⟨kind, value, elements, token⟩, l, h => by
    obtain ⟨⟨rfl, rfl⟩, rfl⟩ := operand?_literal_eq_some.mp h
    exact cases.number value token
  | .statement s, l, h => by
    obtain ⟨x, hx, rfl⟩ := operand?_statement_eq_some.mp h
    exact cases.statement (of_expr? s hx)
  | .ternary ⟨condition, yes, no, token⟩, l, h => by
    obtain ⟨c, y, n, hc, hy, hn, rfl⟩ := operand?_ternary_eq_some.mp h
    exact cases.ternary token (of_expr? condition hc) (of_expr? yes hy) (of_expr? no hn)
  | .instruction _, _, h | .assertion _, _, h | .lambda _, _, h | .call _, _, h
  | .instantiation _, _, h | .classDecl _, _, h | .declaration _, _, h | .ifElse _, _, h
  | .forLoop _, _, h | .whileLoop _, _, h | .doWhileLoop _, _, h | .switch _, _, h
  | .tryCatch _, _, h | .chain _, _, h => by simp [Node.operand?] at h

end

end ExprCases

end Tree

/-! ### Writing -/

/-- Pieces in parentheses if `isWanted`. -/
def parenthesizedPieces (isWanted : Bool) (pieces : List String) : List String :=
  if isWanted then "(" :: pieces ++ [")"] else pieces

/-- Whether there is a left side. -/
def Operand.isPresent : Operand → Bool
  | .absent => false
  | _ => true

/-- An operator before what stands right of it, after or without a left side. -/
def operatorPieces (hasLeft : Bool) (operation : Operator) : List String :=
  if hasLeft then [" ", operation.symbol, " "] else [operation.symbol]

mutual

/-- The pieces of text that an expression is written as. -/
def Expr.pieces : Expr → List String
  | .mk left rest isParenthesized =>
    parenthesizedPieces isParenthesized (left.pieces ++ rest.pieces left.isPresent)

/-- The pieces after the left side. -/
def Rest.pieces (hasLeft : Bool) : Rest → List String
  | .none => []
  | .step operation => [operation.symbol]
  | .operation operation right => operatorPieces hasLeft operation ++ right.pieces

/-- The pieces of text that an operand is written as. -/
def Operand.pieces : Operand → List String
  | .absent => []
  | .name name => [name]
  | .number value => [value]
  | .statement inner => inner.pieces
  | .ternary condition yes no => condition.pieces ++ " ? " :: yes.pieces ++ " : " :: no.pieces

end

namespace Tree

variable {strict : Bool}

theorem Node.isPresent_of_operand? {node : Node} {l : Operand}
    (h : node.operand? strict = some l) : l.isPresent = true := by
  cases node with
  | reference r =>
    rw [Node.operand?] at h
    cases h
    rfl
  | literal literal =>
    rw [(operand?_literal_eq_some.mp h).2]
    rfl
  | statement s =>
    obtain ⟨x, _, rfl⟩ := operand?_statement_eq_some.mp h
    rfl
  | ternary t =>
    obtain ⟨condition, yes, no, token⟩ := t
    obtain ⟨c, y, n, _, _, _, rfl⟩ := operand?_ternary_eq_some.mp h
    rfl
  | _ => simp [Node.operand?] at h

theorem isPresent_leftOperand? {left : Option Node} {l : Operand}
    (h : leftOperand? strict left = some l) : l.isPresent = left.isSome := by
  cases left with
  | none =>
    rw [leftOperand?] at h
    cases h
    rfl
  | some node =>
    rw [leftOperand?] at h
    exact Node.isPresent_of_operand? h

end Tree

namespace Emit

open Javascribe.Tree
open Document (text texts)

theorem texts_append (a b : List String) : texts (a ++ b) = texts a ++ texts b := List.map_append

theorem parenthesized_texts (isWanted : Bool) (pieces : List String) :
    Layout.parenthesized isWanted (texts pieces) = texts (parenthesizedPieces isWanted pieces) := by
  cases isWanted with
  | false => rfl
  | true =>
    show text "(" ++ texts pieces ++ text ")" = texts ("(" :: pieces ++ [")"])
    rw [texts_append]
    rfl

/-- An expression is written as its pieces. -/
theorem statement_of_expr? (s : Statement) {x : Expr} (h : s.expr? true = some x) :
    statement {} s = texts x.pieces := by
  refine ExprCases.of_expr? (P := fun s x => statement {} s = texts x.pieces)
    (L := fun left l => l.isPresent = left.isSome ∧
      ∀ isInitialized, leftSide {} isInitialized left = texts l.pieces)
    (R := fun operator right r => ∀ hasLeft,
      Layout.operation hasLeft (operator.map (·.operation)) (optionStatement {} right) =
        texts (r.pieces hasLeft)) ?_ s h
  have host {use : OperatorUse} (shared : use.operation.isShared = true) :
    use.operation.hostSymbol = use.operation.symbol := eq_of_beq shared
  constructor
  case whole =>
    intro left operator right l r isParenthesized token ⟨present, hl⟩ hr
    rw [statement, hl, Expr.pieces, ← parenthesized_texts, texts_append, present]
    congr 2
    exact hr _
  case absent => exact ⟨rfl, fun _ => rfl⟩
  case name =>
    intro r
    refine ⟨rfl, fun _ => ?_⟩
    simp only [leftSide, node, Operand.pieces]
    rfl
  case number =>
    intro value token
    exact ⟨rfl, fun _ => by simp [leftSide, node, literal, Operand.pieces, text, texts]⟩
  case statement =>
    intro s x hs
    exact ⟨rfl, fun _ => by simp [leftSide, node, hs, Operand.pieces]⟩
  case ternary =>
    intro condition yes no c y n token hc hy hn
    exact ⟨rfl, fun _ => by simp [leftSide, node, hc, hy, hn, Operand.pieces, text, texts]⟩
  case nothing =>
    intro hasLeft
    rw [optionStatement]
    rfl
  case step =>
    intro use shared hasLeft
    rw [optionStatement, Rest.pieces]
    cases hasLeft <;> simp [Layout.operation, host shared, text, texts]
  case operation =>
    intro use s x shared hs hasLeft
    rw [optionStatement, hs, Rest.pieces, texts_append]
    cases hasLeft <;> simp [Layout.operation, operatorPieces, host shared, text, texts]

end Emit

/-! ### Statements without tokens -/

namespace Tree

mutual

/-- An expression with all its tokens set to the first of the source. Parts that
are no expressions are left as they are. -/
def Statement.withoutTokens : Statement → Statement
  | ⟨left, operator, right, isParenthesized, cast, annotations, _⟩ =>
    ⟨leftWithoutTokens left, operator.map fun use => { use with token := 0 },
      rightWithoutTokens right, isParenthesized, cast, annotations, 0⟩

/-- A left side without its tokens. -/
def leftWithoutTokens : Option Node → Option Node
  | none => none
  | some node => some node.withoutTokens

/-- A right side without its tokens. -/
def rightWithoutTokens : Option Statement → Option Statement
  | none => none
  | some statement => some statement.withoutTokens

/-- A node without its tokens. -/
def Node.withoutTokens : Node → Node
  | .reference r => .reference { r with token := 0 }
  | .literal ⟨kind, value, elements, _⟩ => .literal ⟨kind, value, elements, 0⟩
  | .statement s => .statement s.withoutTokens
  | .ternary ⟨condition, yes, no, _⟩ =>
    .ternary ⟨condition.withoutTokens, yes.withoutTokens, no.withoutTokens, 0⟩
  | node => node

end

end Tree

mutual

/-- The statement that an expression comes from, up to tokens. -/
def Expr.statement : Expr → Tree.Statement
  | .mk left rest isParenthesized =>
    ⟨left.node?, rest.use?, rest.right?, isParenthesized, none, [], 0⟩

/-- The operator of what follows the left side. -/
def Rest.use? : Rest → Option Tree.OperatorUse
  | .none => none
  | .step operation => some ⟨operation, 0⟩
  | .operation operation _ => some ⟨operation, 0⟩

/-- The right side of what follows the left side. -/
def Rest.right? : Rest → Option Tree.Statement
  | .none => none
  | .step _ => none
  | .operation _ right => some right.statement

/-- The node that an operand comes from, up to tokens. -/
def Operand.node? : Operand → Option Tree.Node
  | .absent => none
  | .name name => some (.reference ⟨name, 0⟩)
  | .number value => some (.literal ⟨.number, value, [], 0⟩)
  | .statement inner => some (.statement inner.statement)
  | .ternary condition yes no =>
    some (.ternary ⟨condition.statement, yes.statement, no.statement, 0⟩)

end

/-- **Statements with one expression are the same up to tokens.** -/
theorem Tree.Statement.withoutTokens_of_expr? (s : Statement) {x : Expr}
    (h : s.expr? true = some x) : s.withoutTokens = x.statement := by
  refine ExprCases.of_expr? (P := fun s x => s.withoutTokens = x.statement)
    (L := fun left l => leftWithoutTokens left = l.node?)
    (R := fun operator right r => (operator.map fun use => { use with token := 0 }) = r.use? ∧
      rightWithoutTokens right = r.right?) ?_ s h
  constructor <;> intros <;>
    simp_all [Statement.withoutTokens, leftWithoutTokens, rightWithoutTokens, Node.withoutTokens,
      Expr.statement, Rest.use?, Rest.right?, Operand.node?]

/-! ### Attaching an operator -/

/-- An expression that is nothing but an operand. -/
def Operand.alone (operand : Operand) : Expr := .mk operand .none false

/-- `left operation right` as it stands. -/
def Operand.attach (left : Operand) (operation : Operator) (right : Expr) : Expr :=
  .mk left (.operation operation right) false

mutual

/-- Attaches `left operation` to the expression after it. -/
def Expr.combine (left : Operand) (operation : Operator) : Expr → Expr
  | .mk first rest isParenthesized =>
    let right : Expr := .mk first rest isParenthesized
    if operation.isAssignment || isParenthesized then left.attach operation right
    else
      match first, rest with
      | .ternary condition yes no, .none =>
        (Operand.ternary (condition.combine left operation) yes no).alone
      | first, .operation next last =>
        if first.isPresent && next.precedence ≤ Tree.binding operation left.isPresent then
          (Operand.statement (Operand.combine left operation first)).attach next last
        else left.attach operation right
      | _, _ => left.attach operation right

/-- Attaches `left operation` to the first operand of an expression. -/
def Operand.combine (left : Operand) (operation : Operator) : Operand → Expr
  | .statement (.mk first rest isParenthesized) =>
    if isParenthesized then
      left.attach operation (Operand.statement (.mk first rest isParenthesized)).alone
    else (Expr.mk first rest isParenthesized).combine left operation
  | .ternary condition yes no =>
    (Operand.ternary (condition.combine left operation) yes no).alone
  | operand => left.attach operation operand.alone

end

namespace Expr

variable {left first : Operand} {operation next : Operator} {rest : Rest} {last : Expr}
  {isParenthesized : Bool}

theorem combine_of_fixed (h : (operation.isAssignment || isParenthesized) = true) :
    combine left operation (.mk first rest isParenthesized) =
      left.attach operation (.mk first rest isParenthesized) := by
  rw [combine.eq_def]
  exact if_pos h

theorem combine_ternary {condition yes no : Expr}
    (h : ¬ (operation.isAssignment || isParenthesized) = true) :
    combine left operation (.mk (.ternary condition yes no) .none isParenthesized) =
      (Operand.ternary (condition.combine left operation) yes no).alone := by
  rw [combine.eq_def]
  exact if_neg h

theorem combine_of_rotates (h : ¬ (operation.isAssignment || isParenthesized) = true)
    (hFirst : first.isPresent = true)
    (hNext : next.precedence ≤ Tree.binding operation left.isPresent) :
    combine left operation (.mk first (.operation next last) isParenthesized) =
      (Operand.statement (Operand.combine left operation first)).attach next last := by
  rw [combine.eq_def]
  refine (if_neg h).trans ?_
  simp [hFirst, hNext]

theorem combine_of_not_rotates
    (hTernary : ∀ c y n, first = .ternary c y n → rest ≠ .none)
    (hNext : ∀ next last, rest = .operation next last → first.isPresent = true →
      ¬ next.precedence ≤ Tree.binding operation left.isPresent) :
    combine left operation (.mk first rest isParenthesized) =
      left.attach operation (.mk first rest isParenthesized) := by
  rw [combine.eq_def]
  by_cases h : (operation.isAssignment || isParenthesized) = true
  · exact if_pos h
  · refine (if_neg h).trans ?_
    split
    · exact absurd rfl (hTernary _ _ _ rfl)
    · rename_i next last
      refine if_neg fun rotates => ?_
      rw [Bool.and_eq_true, decide_eq_true_eq] at rotates
      exact hNext next last rfl rotates.1 rotates.2
    · rfl

theorem pieces_attach (left : Operand) (operation : Operator) (right : Expr) :
    (left.attach operation right).pieces =
      left.pieces ++ operatorPieces left.isPresent operation ++ right.pieces := by
  rw [Operand.attach, Expr.pieces, Rest.pieces, parenthesizedPieces, if_neg nofun,
    List.append_assoc]

theorem pieces_alone (operand : Operand) : operand.alone.pieces = operand.pieces := by
  rw [Operand.alone, Expr.pieces, Rest.pieces, parenthesizedPieces, if_neg nofun, List.append_nil]

mutual

/-- Attaching puts the left operand and the operator before what is written. -/
theorem pieces_combine (left : Operand) (operation : Operator) : (right : Expr) →
    (combine left operation right).pieces =
      left.pieces ++ operatorPieces left.isPresent operation ++ right.pieces
  | .mk first rest isParenthesized => by
    by_cases h : (operation.isAssignment || isParenthesized) = true
    · rw [combine_of_fixed h, pieces_attach]
    · have open' : isParenthesized = false := by
        rw [Bool.or_eq_true, not_or] at h
        simpa using h.2
      match first, rest with
      | .ternary condition yes no, .none =>
        rw [combine_ternary h, pieces_alone, Operand.pieces, pieces_combine left operation condition,
          Expr.pieces, Operand.pieces, Rest.pieces, open', parenthesizedPieces, if_neg nofun]
        simp
      | first, .operation next last =>
        by_cases rotates : first.isPresent = true ∧
          next.precedence ≤ Tree.binding operation left.isPresent
        · rw [combine_of_rotates h rotates.1 rotates.2, pieces_attach, Operand.pieces,
            pieces_combineOperand left operation first, Expr.pieces, Rest.pieces, open',
            parenthesizedPieces, if_neg nofun, rotates.1]
          simp [Operand.isPresent]
        · rw [combine_of_not_rotates, pieces_attach]
          · exact fun _ _ _ _ => nofun
          · rintro next last ⟨⟩ present binds
            exact rotates ⟨present, binds⟩
      | .absent, .none | .name _, .none | .number _, .none | .statement _, .none =>
        rw [combine_of_not_rotates (by rintro _ _ _ ⟨⟩) (by rintro _ _ ⟨⟩), pieces_attach]
      | first, .step _ =>
        rw [combine_of_not_rotates, pieces_attach]
        · exact fun _ _ _ _ => nofun
        · rintro _ _ ⟨⟩

theorem pieces_combineOperand (left : Operand) (operation : Operator) : (first : Operand) →
    (Operand.combine left operation first).pieces =
      left.pieces ++ operatorPieces left.isPresent operation ++ first.pieces
  | .statement (.mk first rest isParenthesized) => by
    rw [Operand.combine]
    split
    · rw [pieces_attach, pieces_alone]
    · rw [pieces_combine left operation (.mk first rest isParenthesized), Operand.pieces]
  | .ternary condition yes no => by
    rw [Operand.combine, pieces_alone, Operand.pieces, pieces_combine left operation condition,
      Operand.pieces]
    simp
  | .absent | .name _ | .number _ => by
    rw [Operand.combine, pieces_attach, pieces_alone]
    all_goals exact nofun

end

end Expr

namespace Tree

variable {strict : Bool}

theorem expr?_ofNode_eq_some {node : Node} {token : Nat} {x : Expr} :
    (Statement.ofNode node token).expr? strict = some x ↔
      ∃ l, node.operand? strict = some l ∧ x = l.alone := by
  rw [Statement.expr?_eq_some]
  constructor
  · rintro ⟨_, _, l, r, hl, hr, rfl⟩
    have hl : leftOperand? strict (some node) = some l := hl
    rw [leftOperand?] at hl
    cases rest?_none_none.symm.trans hr
    exact ⟨l, hl, rfl⟩
  · rintro ⟨l, hl, rfl⟩
    refine ⟨rfl, fun _ => rfl, l, .none, ?_, rest?_none_none, rfl⟩
    show leftOperand? strict (some node) = some l
    rw [leftOperand?, hl]

theorem expr?_attach_eq_some {left : Option Node} {use : OperatorUse} {right : Statement}
    {token : Nat} {x : Expr} :
    (attach left use right token).expr? strict = some x ↔ use.operation.isShared = true ∧
      ∃ l r, leftOperand? strict left = some l ∧ right.expr? strict = some r ∧
        x = l.attach use.operation r := by
  rw [Statement.expr?_eq_some]
  constructor
  · rintro ⟨_, _, l, r, hl, hr, rfl⟩
    obtain ⟨shared, x, hx, rfl⟩ := rest?_operation_eq_some.mp hr
    exact ⟨shared, l, x, hl, hx, rfl⟩
  · rintro ⟨shared, l, r, hl, hr, rfl⟩
    exact ⟨rfl, fun _ => rfl, l, .operation use.operation r, hl,
      rest?_operation_eq_some.mpr ⟨shared, r, hr, rfl⟩, rfl⟩

theorem exists_ternary_of_leftOperand? {left : Option Node} {c y n : Expr}
    (h : leftOperand? strict left = some (.ternary c y n)) : ∃ t, left = some (.ternary t) := by
  cases left with
  | none =>
    rw [leftOperand?] at h
    cases h
  | some node =>
    rw [leftOperand?] at h
    cases node with
    | ternary t => exact ⟨t, rfl⟩
    | reference r =>
      rw [Node.operand?] at h
      cases h
    | literal literal => cases (operand?_literal_eq_some.mp h).2
    | statement s =>
      obtain ⟨_, _, h⟩ := operand?_statement_eq_some.mp h
      cases h
    | _ => simp [Node.operand?] at h

theorem rest?_ne_none_of_some {use : OperatorUse} {right : Option Statement} :
    rest? strict (some use) right ≠ some .none := by
  intro h
  cases right with
  | none => cases (rest?_step_eq_some.mp h).2
  | some right =>
    obtain ⟨_, _, _, h⟩ := rest?_operation_eq_some.mp h
    cases h

theorem exists_of_rest?_operation {operator : Option OperatorUse} {right : Option Statement}
    {next : Operator} {last : Expr} (h : rest? strict operator right = some (.operation next last)) :
    ∃ use s, operator = some use ∧ right = some s ∧ use.operation = next := by
  match operator, right with
  | none, none =>
    rw [rest?] at h
    cases h
  | none, some _ =>
    rw [rest?] at h
    split at h <;> cases h
  | some use, none => cases (rest?_step_eq_some.mp h).2
  | some use, some s =>
    obtain ⟨_, _, _, h⟩ := rest?_operation_eq_some.mp h
    cases h
    exact ⟨use, s, rfl, rfl, rfl⟩

/-- An operator is attached without parentheses or a cast. -/
theorem combine_isBare (left : Option Node) (use : OperatorUse) (token : Nat) (right : Statement) :
    (combine left use token right).cast = none ∧
      (combine left use token right).isParenthesized = false := by
  rw [combine.eq_def]
  dsimp only
  repeat' split
  all_goals exact ⟨rfl, rfl⟩

theorem hasOperand_combine (left : Option Node) (use : OperatorUse) (token : Nat)
    (right : Statement) : (combine left use token right).hasOperand = true := by
  rw [combine.eq_def]
  dsimp only
  repeat' split
  all_goals simp [attach, Statement.ofNode, Statement.hasOperand]

theorem cast_eq_none_of_open {assigns : Bool} {s : Statement}
    (h : ¬ (assigns || s.isGrouped) = true) : s.cast = none := by
  simp only [Statement.isGrouped, Bool.or_eq_true, not_or] at h
  simpa using h.2.2

section Attaching

variable {left : Option Node} {use : OperatorUse} {token : Nat} {l : Operand}

/-- Attaching to statements that are expressions is attaching to the expressions. -/
theorem expr?_combine_and_operand (hl : leftOperand? strict left = some l)
    (shared : use.operation.isShared = true) :
    (∀ (right : Statement) {x : Expr}, right.expr? strict = some x →
      (combine left use token right).expr? strict = some (Expr.combine l use.operation x)) ∧
    (∀ (start : Nat) (node : Node) {o : Operand}, node.operand? strict = some o →
      (combineOperand left use token start node).expr? strict =
        some (Operand.combine l use.operation o)) := by
  have present : left.isSome = l.isPresent := (isPresent_leftOperand? hl).symm
  refine combine_induction left use token
    (P := fun right s => ∀ {x : Expr}, right.expr? strict = some x →
      s.expr? strict = some (Expr.combine l use.operation x))
    (Q := fun _ node s => ∀ {o : Operand}, node.operand? strict = some o →
      s.expr? strict = some (Operand.combine l use.operation o)) ?_ ?_ ?_ ?_ ?_ ?_
  · intro right stays x hx
    rw [expr?_attach_eq_some]
    refine ⟨shared, l, x, hl, hx, ?_⟩
    obtain ⟨hCast, _, f, r, hf, hr, rfl⟩ := Statement.expr?_eq_some.mp hx
    rcases stays with fixed | ⟨hternary, hrot⟩
    · exact Expr.combine_of_fixed (by simpa [Statement.isGrouped, hCast] using fixed)
    · refine Expr.combine_of_not_rotates ?_ ?_
      · rintro c y n rfl rfl
        obtain ⟨t, hleft⟩ := exists_ternary_of_leftOperand? hf
        refine hternary t hleft ?_
        cases hOperator : right.operator with
        | none => rfl
        | some next => exact absurd (hOperator ▸ hr) rest?_ne_none_of_some
      · rintro next last rfl firstPresent binds
        obtain ⟨next, rest, hnext, hrest, rfl⟩ := exists_of_rest?_operation hr
        rw [isPresent_leftOperand? hf, Option.isSome_iff_exists] at firstPresent
        obtain ⟨node, hleft⟩ := firstPresent
        have keeps := hrot node next rest hleft hnext hrest
        rw [rotates, present, decide_eq_false_iff_not] at keeps
        exact keeps binds
  · intro right condition yes no at' h hleft hnone ih x hx
    obtain ⟨hCast, _, f, r, hf, hr, rfl⟩ := Statement.expr?_eq_some.mp hx
    rw [hleft, leftOperand?] at hf
    obtain ⟨c, y, n, hc, hy, hn, rfl⟩ := operand?_ternary_eq_some.mp hf
    rw [hnone] at hr
    obtain rfl : r = .none := by
      cases hRight : right.right with
      | none => exact Option.some.inj ((hRight ▸ hr).symm.trans rest?_none_none)
      | some right =>
        rw [hRight, rest?] at hr
        split at hr <;> cases hr
        rfl
    rw [expr?_ofNode_eq_some]
    refine ⟨_, operand?_ternary_eq_some.mpr ⟨_, y, n, ih hc, hy, hn, rfl⟩, ?_⟩
    exact Expr.combine_ternary (by simpa [Statement.isGrouped, hCast] using h)
  · intro right node next rest h hleft hnext hright hrot ih x hx
    obtain ⟨hCast, _, f, r, hf, hr, rfl⟩ := Statement.expr?_eq_some.mp hx
    rw [hleft, leftOperand?] at hf
    rw [hnext, hright] at hr
    obtain ⟨sharedNext, last, hLast, rfl⟩ := rest?_operation_eq_some.mp hr
    rw [rotates, present, decide_eq_true_eq] at hrot
    show (attach (some (.statement _)) next rest token).expr? strict = _
    rw [expr?_attach_eq_some]
    refine ⟨sharedNext, .statement (Operand.combine l use.operation f), last, ?_, hLast, ?_⟩
    · rw [leftOperand?]
      exact operand?_statement_eq_some.mpr ⟨_, ih hf, rfl⟩
    · exact Expr.combine_of_rotates (by simpa [Statement.isGrouped, hCast] using h)
        (Node.isPresent_of_operand? hf) hrot
  · intro start node hOperand o ho
    rw [expr?_attach_eq_some]
    refine ⟨shared, l, _, hl, expr?_ofNode_eq_some.mpr ⟨o, ho, rfl⟩, ?_⟩
    cases node with
    | reference r =>
      rw [Node.operand?] at ho
      cases ho
      rfl
    | literal literal =>
      rw [(operand?_literal_eq_some.mp ho).2]
      rfl
    | statement s =>
      obtain ⟨x, hx, rfl⟩ := operand?_statement_eq_some.mp ho
      obtain ⟨hCast, _, f, r, _, _, rfl⟩ := Statement.expr?_eq_some.mp hx
      rw [Operand.combine]
      exact if_pos (by simpa [Node.IsOperand, Statement.isGrouped, hCast] using hOperand)
    | ternary t => exact hOperand.elim
    | _ => simp [Node.operand?] at ho
  · intro start s ih hg o ho
    obtain ⟨x, hx, rfl⟩ := operand?_statement_eq_some.mp ho
    rw [ih hx]
    obtain ⟨hCast, _, f, r, _, _, rfl⟩ := Statement.expr?_eq_some.mp hx
    rw [Operand.combine]
    exact congrArg some (if_neg (by simpa [Statement.isGrouped, hCast] using hg)).symm
  · intro start condition yes no at' ih o ho
    obtain ⟨c, y, n, hc, hy, hn, rfl⟩ := operand?_ternary_eq_some.mp ho
    rw [expr?_ofNode_eq_some]
    refine ⟨_, operand?_ternary_eq_some.mpr ⟨_, y, n, ih hc, hy, hn, rfl⟩, ?_⟩
    rw [Operand.combine]

theorem expr?_combine (hl : leftOperand? strict left = some l)
    (shared : use.operation.isShared = true) {right : Statement} {x : Expr}
    (hx : right.expr? strict = some x) :
    (combine left use token right).expr? strict = some (Expr.combine l use.operation x) :=
  (expr?_combine_and_operand hl shared).1 right hx

/-- What is an expression after an operator was attached was made of expressions. -/
theorem exists_of_combine_and_operand :
    (∀ (right : Statement) {y : Expr}, (combine left use token right).expr? false = some y →
      use.operation.isShared = true ∧ (∃ l, leftOperand? false left = some l) ∧
        ∃ x, right.expr? false = some x) ∧
    (∀ (start : Nat) (node : Node) {y : Expr},
      (combineOperand left use token start node).expr? false = some y →
      use.operation.isShared = true ∧ (∃ l, leftOperand? false left = some l) ∧
        ∃ o, node.operand? false = some o) := by
  refine combine_induction left use token
    (P := fun right s => ∀ {y : Expr}, s.expr? false = some y → use.operation.isShared = true ∧
      (∃ l, leftOperand? false left = some l) ∧ ∃ x, right.expr? false = some x)
    (Q := fun _ node s => ∀ {y : Expr}, s.expr? false = some y → use.operation.isShared = true ∧
      (∃ l, leftOperand? false left = some l) ∧ ∃ o, node.operand? false = some o) ?_ ?_ ?_ ?_ ?_ ?_
  · intro right _ y hy
    obtain ⟨shared, l, x, hl, hx, _⟩ := expr?_attach_eq_some.mp hy
    exact ⟨shared, ⟨l, hl⟩, x, hx⟩
  · intro right condition yes no at' h hleft hnone ih s hs
    obtain ⟨o, ho, _⟩ := expr?_ofNode_eq_some.mp hs
    obtain ⟨c, y, n, hc, hy, hn, rfl⟩ := operand?_ternary_eq_some.mp ho
    obtain ⟨shared, hl, c', hc'⟩ := ih hc
    refine ⟨shared, hl, _, Statement.expr?_eq_some.mpr
      ⟨cast_eq_none_of_open h, nofun, .ternary c' y n, .none, ?_, ?_, rfl⟩⟩
    · rw [hleft, leftOperand?]
      exact operand?_ternary_eq_some.mpr ⟨c', y, n, hc', hy, hn, rfl⟩
    · rw [hnone]
      cases right.right <;> rw [rest?]
      rfl
  · intro right node next rest h hleft hnext hright _ ih s hs
    have hs : (attach (some (.statement (combineOperand left use token right.token node))) next rest
      token).expr? false = some s := hs
    obtain ⟨sharedNext, o, r, ho, hr, _⟩ := expr?_attach_eq_some.mp hs
    rw [leftOperand?] at ho
    obtain ⟨y, hy, _⟩ := operand?_statement_eq_some.mp ho
    obtain ⟨shared, hl, f, hf⟩ := ih hy
    refine ⟨shared, hl, _, Statement.expr?_eq_some.mpr
      ⟨cast_eq_none_of_open h, nofun, f, .operation next.operation r, ?_, ?_, rfl⟩⟩
    · rw [hleft, leftOperand?, hf]
    · rw [hnext, hright]
      exact rest?_operation_eq_some.mpr ⟨sharedNext, r, hr, rfl⟩
  · intro start node _ y hy
    obtain ⟨shared, l, x, hl, hx, _⟩ := expr?_attach_eq_some.mp hy
    obtain ⟨o, ho, _⟩ := expr?_ofNode_eq_some.mp hx
    exact ⟨shared, ⟨l, hl⟩, o, ho⟩
  · intro start s ih _ y hy
    obtain ⟨shared, hl, x, hx⟩ := ih hy
    exact ⟨shared, hl, _, operand?_statement_eq_some.mpr ⟨x, hx, rfl⟩⟩
  · intro start condition yes no at' ih s hs
    obtain ⟨o, ho, _⟩ := expr?_ofNode_eq_some.mp hs
    obtain ⟨c, y, n, hc, hy, hn, rfl⟩ := operand?_ternary_eq_some.mp ho
    obtain ⟨shared, hl, c', hc'⟩ := ih hc
    exact ⟨shared, hl, _, operand?_ternary_eq_some.mpr ⟨c', y, n, hc', hy, hn, rfl⟩⟩

theorem expr?_of_combine {right : Statement} {y : Expr}
    (h : (combine left use token right).expr? false = some y) :
    ∃ l x, leftOperand? false left = some l ∧ right.expr? false = some x ∧
      use.operation.isShared = true ∧ y = Expr.combine l use.operation x := by
  obtain ⟨shared, ⟨l, hl⟩, x, hx⟩ := exists_of_combine_and_operand.1 right h
  refine ⟨l, x, hl, hx, shared, ?_⟩
  rw [expr?_combine hl shared hx] at h
  exact (Option.some.inj h).symm

end Attaching

/-- What is an expression in a strict reading is the same in any. -/
theorem Statement.expr?_loose (s : Statement) {x : Expr} (h : s.expr? true = some x) :
    s.expr? false = some x := by
  refine ExprCases.of_expr? (P := fun s x => s.expr? false = some x)
    (L := fun left l => leftOperand? false left = some l)
    (R := fun operator right r => rest? false operator right = some r) ?_ s h
  constructor <;> intros <;>
    simp_all [Statement.expr?, leftOperand?, rest?, Node.operand?]

end Tree

end Javascribe

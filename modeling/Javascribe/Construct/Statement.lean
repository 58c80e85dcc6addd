/-
# Statements

A statement starts with at most one construct, its left side. After that
dots, brackets and parentheses continue the left side, and operators attach
the statement that follows them. Loops, conditions and the like end their
statement at once.

Key definitions: `Construct.leading`, `Construct.statement`.
-/
import Javascribe.Parser.Production
import Javascribe.Tree.Precedence

namespace Javascribe
namespace Construct

open Javascribe.Parser
open Javascribe.Tree (Statement Node Property)

/-- The construct at the current token, if a statement can start with it. -/
def leading (parse : Family) : Parser (Option Node) := do
  let cursor ← get
  let tokens := cursor.tokens
  let id := cursor.current
  if tokens.startsInstruction id then (some <| .instruction ·) <$> parse .instruction
  else if cursor.is "assert" then (some <| .assertion ·) <$> parse .assertion
  else if tokens.startsLiteral id then (some <| .literal ·) <$> parse .literal
  else if tokens.startsLambda id then (some <| .lambda ·) <$> parse .lambda
  else if tokens.startsReference id then (some <| .reference ·) <$> parse .reference
  else if tokens.startsCall id then (some <| .call ·) <$> parse .call
  else if cursor.is "new" then (some <| .instantiation ·) <$> parse .instantiation
  else if cursor.is "class" then (some <| .classDecl ·) <$> parse .classDecl
  else if tokens.startsType id then (some <| .declaration ·) <$> parse .declaration
  else if cursor.is "if" then (some <| .ifElse ·) <$> parse .ifElse
  else if cursor.is "for" then (some <| .forLoop ·) <$> parse .forLoop
  else if cursor.is "while" then (some <| .whileLoop ·) <$> parse .whileLoop
  else if cursor.is "do" then (some <| .doWhileLoop ·) <$> parse .doWhileLoop
  else if cursor.is "switch" then (some <| .switch ·) <$> parse .switch
  else if cursor.is "try" then (some <| .tryCatch ·) <$> parse .tryCatch
  else return none

/-- Whether a dot, bracket or parenthesis may continue a value. -/
def canContinue : Node → Bool
  | .statement s => s.isParenthesized
  | .call _ | .reference _ => true
  | .instantiation i => i.body.isNone && i.arraySize.isNone && i.arrayLiteral.isNone
  | .literal l => l.kind == .string
  | _ => false

/-- A value as the first link of a chain. -/
def headLink : Node → Property
  | .reference r => .reference r
  | .call c => .call c
  | node => .head node

/-- The annotations before a statement. -/
def leadingAnnotations (parse : Family) : Parser (List Tree.AnnotationUse) :=
  iterate [] fun annotations => do
    if ← isAt "@" then return .inl ((← parse .annotationUse) :: annotations)
    else return .inr annotations.reverse

/-- A parenthesis: arguments after a value, otherwise a cast or a group. -/
def parenthesis (parse : Family) : Handler Statement := fun statement => do
  match statement.left with
  | some left =>
    ensure (canContinue left)
    let call ← parse .call
    proceed { statement with left := some (.chain ⟨[headLink left, .call call], statement.token⟩) }
  | none =>
    ensure statement.operator.isNone
    let cursor ← get
    next
    if cursor.tokens.startsCast cursor.current then
      let type ← parse .typeRef
      eat ")"
      let value ← parse .statement
      proceed { Tree.applyCast type statement.token value with
        annotations := statement.annotations }
    else
      let inner ← parse .statement
      eat ")"
      proceed { statement with left := some (.statement { inner with isParenthesized := true }) }

/-- A dot or bracket after a value. -/
def continuation (parse : Family) : Handler Statement := fun statement => do
  match statement.left with
  | none => unexpected
  | some left =>
    ensure (statement.operator.isNone && canContinue left)
    let chain ← parse .chain
    proceed { statement with
      left := some (.chain ⟨headLink left :: chain.properties, statement.token⟩) }

/-- The names of the links that are bare names. -/
def referenceNames (properties : List Property) : List String :=
  properties.filterMap fun
    | .reference r => some r.name
    | _ => none

/-- A chain that starts with a name. One that ends in a type is the type of
the declaration of the name that follows. -/
def leadingChain (parse : Family) : Handler Statement := fun statement => do
  ensure (statement.left.isNone && statement.operator.isNone)
  let chain ← parse .chain
  match chain.properties.getLast? with
  | some (.type type) =>
    let names := referenceNames chain.properties.dropLast ++ type.names
    let name ← eatWord
    let type := { type with names := names, token := chain.token }
    proceed { statement with left := some (.declaration ⟨false, type, name, false, chain.token⟩) }
  | _ => proceed { statement with left := some (.chain chain) }

/-- A step operator after its operand. Unless the statement ends here, the
two are grouped, so that the next operator applies to both. -/
def attachStep (cursor : Cursor) (operator : Tree.OperatorUse) (statement : Statement) :
    Statement :=
  if cursor.isEof || Keyword.statementEnds.contains cursor.value then
    { statement with operator := some operator }
  else
    { statement with
      left := some (.statement
        { Statement.empty statement.token with
          left := statement.left, operator := some operator }) }

/-- The two values of a ternary, whose condition is all that has been read. -/
def ternary (parse : Family) : Handler Statement := fun statement => do
  eat "?"
  let yes ← parse .statement
  eat ":"
  let no ← parse .statement
  let token := statement.token
  let node : Node := .ternary ⟨{ statement with annotations := [] }, yes, no, token⟩
  proceed { Statement.ofNode node token with annotations := statement.annotations }

/-- Whether an operator may stand at the current token, after `left`. -/
def admitsOperator (cursor : Cursor) : Option Node → Bool
  | some (.lambda _) => false
  | some _ => true
  | none => ["!", "+", "-", "~"].contains cursor.value

/-- An operator and what it applies to. -/
def operation (parse : Family) : Handler Statement := fun statement => do
  let cursor ← get
  ensure (admitsOperator cursor statement.left)
  if cursor.tokens.startsTernary cursor.current then ternary parse statement
  else
    let operator ← parse .operator
    if operator.operation.isStep && statement.left.isSome then
      proceed (attachStep (← get) operator statement)
    else
      let right ← parse .statement
      ensureElse right.hasOperand .misplacedOperator
      let combined := Tree.combine statement.left operator statement.token right
      proceed { statement with
        left := combined.left, operator := combined.operator, right := combined.right }

/-- The parts of a statement. -/
def statementGrammar (parse : Family) : Grammar Statement Statement where
  begin := Statement.empty
  first := fun statement => do
    let annotations ← leadingAnnotations parse
    let node? ← leading parse
    let statement := { statement with left := node?, annotations := annotations }
    if node?.any (·.isSelfTerminating) then stop statement else proceed statement
  rules := [
    ⟨.literal "(", parenthesis parse⟩,
    ⟨.literal ".", continuation parse⟩,
    ⟨.literal "[", continuation parse⟩,
    ⟨.anyOf Keyword.statementEnds, stop⟩,
    ⟨.predicate TokenStream.startsChain, leadingChain parse⟩,
    ⟨.predicate TokenStream.startsOperator, operation parse⟩]
  complete := pure

/-- A statement or expression, up to the token that ends it. -/
def statement (parse : Family) : Parser Statement := (statementGrammar parse).parse

end Construct
end Javascribe

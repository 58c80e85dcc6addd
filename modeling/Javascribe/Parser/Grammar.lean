/-
# Grammars

A grammar reads one construct. Its steps run once, in order: a required step
fails unless the current token matches, an optional one is left out. Then
its rules are tried on every token, the more specific kinds of matchers
first. A handler runs with the cursor on the token that matched and says how
to go on: to proceed (the cursor steps, unless the handler moved it), to
stop where the cursor is, or to finish past the current token.

Key definitions: `Signal`, `Matcher`, `Grammar`, `Grammar.parse`,
`Parser.sequence`.
-/
import Javascribe.Parser.Cursor

namespace Javascribe

/-- How a grammar goes on after a handler. -/
inductive Signal where
  | proceed
  | stop
  | finish
  deriving DecidableEq, Repr

/-- A test of one token. -/
inductive Matcher where
  | literal (value : String)
  | anyOf (values : List String)
  | predicate (holds : TokenStream → Nat → Bool)
  | pattern (accepts : String → Bool)

namespace Matcher

/-- Whether a token passes the test. -/
def accepts (tokens : TokenStream) (id : Nat) : Matcher → Bool
  | .literal value => tokens.value id == value
  | .anyOf values => values.contains (tokens.value id)
  | .predicate holds => holds tokens id
  | .pattern accepts => accepts (tokens.value id)

/-- The order in which rules are tried. -/
def specificity : Matcher → Nat
  | .literal _ => 0
  | .anyOf _ => 1
  | .predicate _ => 2
  | .pattern _ => 3

/-- Any token with something on its line. -/
def anyText : Matcher := .pattern fun value => value.toList.any (· != '\n')

/-- An opening quote. -/
def quote : Matcher := .pattern fun value => value == "'" || value == "\""

/-- Any word. -/
def word : Matcher := .predicate TokenStream.isWord

/-- Any number. -/
def number : Matcher := .predicate TokenStream.isNumber

end Matcher

/-- Whether the current token of a cursor passes a test. -/
def Cursor.matches (cursor : Cursor) (matcher : Matcher) : Bool :=
  matcher.accepts cursor.tokens cursor.current

/-- A handler changes what has been read so far. -/
abbrev Handler (σ : Type) := σ → Parser (σ × Signal)

/-- Goes on with what has been read. -/
def proceed {σ : Type} (state : σ) : Parser (σ × Signal) := pure (state, .proceed)

/-- Ends a construct at the current token. -/
def stop {σ : Type} (state : σ) : Parser (σ × Signal) := pure (state, .stop)

/-- Ends a construct past the current token. -/
def finish {σ : Type} (state : σ) : Parser (σ × Signal) := pure (state, .finish)

/-- What to do on a token that matches. -/
structure Rule (σ : Type) where
  matcher : Matcher
  handler : Handler σ

/-- A rule that runs once, in its place. -/
structure Step (σ : Type) extends Rule σ where
  isRequired : Bool

/-- How one construct is read. What has been read so far is a `σ`, the
construct an `α`. -/
structure Grammar (σ α : Type) where
  begin : Nat → σ
  first : Handler σ := proceed
  steps : List (Step σ) := []
  rules : List (Rule σ) := []
  trivia : List Trivia := []
  isSingleLine : Bool := false
  complete : σ → Parser α

/-- A required step. -/
def Step.eat {σ : Type} (matcher : Matcher) (handler : Handler σ) : Step σ :=
  ⟨⟨matcher, handler⟩, true⟩

/-- An optional step. -/
def Step.allow {σ : Type} (matcher : Matcher) (handler : Handler σ) : Step σ :=
  ⟨⟨matcher, handler⟩, false⟩

namespace Grammar

variable {σ α : Type}

/-- Steps on unless a handler moved the cursor from `start`. -/
def stepFrom (start : Nat) : Parser Unit := do
  if (← get).current == start then Parser.next

/-- Runs the steps that are left. -/
def runSteps : List (Step σ) → Handler σ
  | [], state => proceed state
  | step :: steps, state => do
    let cursor ← get
    if cursor.matches step.matcher then
      let (state, signal) ← step.handler state
      match signal with
      | .proceed =>
        stepFrom cursor.current
        runSteps steps state
      | _ => return (state, signal)
    else if step.isRequired then Parser.unexpected
    else runSteps steps state

/-- The rules, by specificity and otherwise as declared. -/
def orderedRules (rules : List (Rule σ)) : List (Rule σ) :=
  (List.range 4).flatMap fun rank => rules.filter (·.matcher.specificity == rank)

/-- Applies the rules to token after token. -/
def runRules (rules : List (Rule σ)) (line : Option Nat) : Handler σ := fun state =>
  Parser.iterate state fun state => do
    let cursor ← get
    if cursor.isEof then return .inr (state, .stop)
    Parser.ensure (line.all (· == cursor.line))
    match rules.find? fun rule => cursor.matches rule.matcher with
    | none => Parser.unexpected
    | some rule =>
      let (state, signal) ← rule.handler state
      match signal with
      | .proceed =>
        stepFrom cursor.current
        return .inl state
      | _ => return .inr (state, signal)

/-- Runs the first handler, the steps and the rules. -/
def run (grammar : Grammar σ α) : Handler σ := fun state => do
  let line := (← get).line
  let (state, signal) ← grammar.first state
  if signal != .proceed then return (state, signal)
  let (state, signal) ← runSteps grammar.steps state
  if signal != .proceed then return (state, signal)
  runRules (orderedRules grammar.rules) (if grammar.isSingleLine then some line else none) state

/-- Reads the construct that starts at the current token. -/
def parse (grammar : Grammar σ α) : Parser α :=
  Parser.withTrivia grammar.trivia <| Parser.construct fun token => do
    let (state, signal) ← grammar.run (grammar.begin token)
    if signal == .finish then Parser.next
    grammar.complete state

end Grammar

namespace Parser

/-- Reads one more value of a sequence and the delimiter after it, behind the
values read so far, the last one first. -/
def sequenceStep {α : Type} (value : Parser α) (delimiter terminator : Matcher)
    (values : List α) : Parser (List α ⊕ List α) := do
  if (← get).isEof then return .inr values.reverse
  let values := (← value) :: values
  let cursor ← get
  if cursor.matches terminator then return .inr values.reverse
  if !cursor.matches delimiter then unexpected
  next
  return .inl values

/-- Reads values up to the terminator, which is left to the caller, with a
delimiter between each two. EOF ends the sequence as well. -/
def sequence {α : Type} (value : Parser α) (delimiter terminator : Matcher) : Parser (List α) := do
  if (← get).matches terminator then return []
  iterate [] (sequenceStep value delimiter terminator)

/-- Values with commas between them, up to `terminator`. -/
def commaList {α : Type} (value : Parser α) (terminator : String) : Parser (List α) :=
  sequence value (.literal ",") (.literal terminator)

end Parser
end Javascribe

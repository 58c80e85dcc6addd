/-
# The cursor of a parser

All parsers of one run read the tokens through one cursor: a position, how
deep the parsers are nested, and the kinds of trivia that are passed over.
A parser is a function of the cursor that also says where the cursor is
after a failure.

Trivia is skipped whenever the cursor steps to the next text token. Text is
skipped without looking for trivia inside it.

Key definitions: `Cursor`, `Parser`, `Parser.nested`, `Parser.settle`,
`Parser.next`, `Parser.eat`, `Parser.iterate`, `Parser.construct`.
-/
import Javascribe.Limits
import Javascribe.Parser.Error
import Javascribe.Token.Lookahead

namespace Javascribe

/-- What a cursor passes over: comments, or a symbol that means nothing. -/
inductive Trivia where
  | comment
  | mark (text : String)
  deriving DecidableEq, Repr

/-- Whether trivia starts at a token. -/
def Trivia.startsAt (tokens : TokenStream) (id : Nat) : Trivia → Bool
  | .comment => tokens.startsComment id
  | .mark text => tokens.value id == text

/-- A position in a stream, with what the parsers above it have set up. -/
structure Cursor where
  tokens : TokenStream
  current : Nat
  depth : Nat
  trivia : List Trivia
  isSkipping : Bool

namespace Cursor

/-- A cursor on the first text token. -/
def ofTokens (tokens : TokenStream) : Cursor := ⟨tokens, tokens.firstText, 0, [], false⟩

variable (cursor : Cursor)

/-- The text of the current token. -/
def value : String := cursor.tokens.value cursor.current

/-- The line of the current token. -/
def line : Nat := cursor.tokens.line cursor.current

/-- Whether the cursor is at EOF. -/
def isEof : Bool := cursor.tokens.isEof cursor.current

/-- Whether the current token is exactly `value`. -/
def is (value : String) : Bool := cursor.value == value

/-- Whether the current token is a word. -/
def isWord : Bool := cursor.tokens.isWord cursor.current

/-- The next text token. -/
def peek : Nat := cursor.tokens.nextText cursor.current

/-- The next token, text or layout. -/
def peekRaw : Nat := cursor.tokens.next cursor.current

/-- The text token before. -/
def previous : Option Nat := cursor.tokens.previousText cursor.current

/-- The token before, text or layout. -/
def previousRaw : Option Nat := cursor.tokens.previous cursor.current

/-- Whether the next text token is exactly `value`. -/
def nextIs (value : String) : Bool := cursor.tokens.value cursor.peek == value

/-- Whether the next token is exactly `value`. -/
def nextRawIs (value : String) : Bool := cursor.tokens.value cursor.peekRaw == value

/-- Whether the text token before is one of `values`. -/
def follows (values : List String) : Bool :=
  cursor.previous.any fun id => values.contains (cursor.tokens.value id)

/-- Whether the token before is exactly `value`. -/
def followsRaw (value : String) : Bool :=
  cursor.previousRaw.any fun id => cursor.tokens.value id == value

/-- The number of tokens up to EOF. -/
def remaining : Nat := cursor.tokens.eof - cursor.current

/-- The cursor at another token. -/
def moveTo (id : Nat) : Cursor := { cursor with current := id }

/-- The cursor at the next text token, or still at EOF. -/
def stepText : Cursor := if cursor.isEof then cursor else cursor.moveTo cursor.peek

/-- The cursor at the next token. -/
def stepRaw : Cursor := cursor.moveTo cursor.peekRaw

/-- The cursor at text: layout is left for the next text token. -/
def skipLayout : Cursor :=
  if cursor.tokens.isText cursor.current then cursor else cursor.stepText

/-- The error of a cause at the current token. -/
def error (cause : ParseCause) : ParseError :=
  let token := cursor.tokens.get cursor.current
  ⟨cause, token.line, token.start, token.length⟩

/-- The error of a current token that does not belong here. -/
def unexpected : ParseError :=
  if cursor.isEof then cursor.error .unexpectedEnd
  else cursor.error (.unexpected (cursor.tokens.kind cursor.current) cursor.value)

end Cursor

/-- A parser reads from a cursor and leaves it somewhere, also when it fails. -/
abbrev Parser := EStateM ParseError Cursor

namespace Parser

/-- Fails with a cause at the current token. -/
def fail {α : Type} (cause : ParseCause) : Parser α :=
  fun cursor => .error (cursor.error cause) cursor

/-- Fails because the current token does not belong here. -/
def unexpected {α : Type} : Parser α := fun cursor => .error cursor.unexpected cursor

/-- Fails at the current token unless the condition holds. -/
def ensure (condition : Bool) : Parser Unit := if condition then pure () else unexpected

/-- Fails with a cause unless the condition holds. -/
def ensureElse (condition : Bool) (cause : ParseCause) : Parser Unit :=
  if condition then pure () else fail cause

/-- Steps to the next token, text or layout. -/
def advanceRaw : Parser Unit := modify Cursor.stepRaw

/-- Runs a parser one level deeper, unless that is too deep. -/
def nested {α : Type} (parser : Parser α) : Parser α := fun cursor =>
  if maxParserDepth ≤ cursor.depth then .error (cursor.error .tooDeep) cursor
  else
    match parser { cursor with depth := cursor.depth + 1 } with
    | .ok value cursor => .ok value { cursor with depth := cursor.depth - 1 }
    | .error error cursor => .error error { cursor with depth := cursor.depth - 1 }

/-- Repeats a step at most `fuel` times, until it gives a result. -/
def iterateFrom {σ α : Type} (step : σ → Parser (σ ⊕ α)) : Nat → σ → Parser α
  | 0, _ => fail .stalled
  | fuel + 1, state => do
    match ← step state with
    | .inl state => iterateFrom step fuel state
    | .inr value => return value

/-- Repeats a step until it gives a result. Each repetition but the last
moves the cursor, so there are no more of them than tokens left. -/
def iterate {σ α : Type} (state : σ) (step : σ → Parser (σ ⊕ α)) : Parser α := do
  iterateFrom step ((← get).remaining + 1) state

/-- Steps token by token to one that satisfies the condition, or to EOF. -/
def advanceUntil (condition : Cursor → Bool) : Parser Unit :=
  iterate () fun () => do
    let cursor ← get
    if cursor.isEof || condition cursor then return .inr ()
    advanceRaw
    return .inl ()

/-- Whether the cursor is at the star of a star and slash that end a comment. -/
def endsComment (cursor : Cursor) : Bool :=
  cursor.is "*" && cursor.nextRawIs "/" && cursor.tokens.areAdjacent cursor.current cursor.peekRaw

/-- Passes over the comment that starts at the current token: up to the end
of the line after two slashes, otherwise up to a star and slash. The cursor
is left on the next text token by `advance`. -/
def skipComment (advance : Parser Unit) : Parser Unit := do
  if (← get).nextRawIs "/" then
    advanceUntil fun cursor => cursor.tokens.isNewline cursor.current
    advance
  else
    advanceRaw
    advanceRaw
    advanceUntil endsComment
    if (← get).isEof then fail .openComment
    advanceRaw
    advance

/-- Passes over trivia at the current token. -/
def skipTrivia : Trivia → Parser Unit
  | .comment => nested do
    modify Cursor.skipLayout
    skipComment (modify Cursor.stepText)
  | .mark _ => modify Cursor.stepText

/-- Passes over all trivia at the current token. -/
def skipAllTrivia : Parser Unit :=
  iterate () fun () => do
    let cursor ← get
    if cursor.isEof then return .inr ()
    match cursor.trivia.find? (·.startsAt cursor.tokens cursor.current) with
    | none => return .inr ()
    | some trivia =>
      skipTrivia trivia
      modify Cursor.skipLayout
      if (← get).current == cursor.current then return .inr ()
      return .inl ()

/-- Passes over trivia, unless trivia is being passed over. -/
def settle : Parser Unit := fun cursor =>
  if cursor.isSkipping || cursor.trivia.isEmpty then .ok () cursor
  else
    match skipAllTrivia { cursor with isSkipping := true } with
    | .ok () cursor => .ok () { cursor with isSkipping := false }
    | .error error cursor => .error error { cursor with isSkipping := false }

/-- Steps to the next text token that is not trivia. -/
def next : Parser Unit := do
  modify Cursor.stepText
  settle

/-- Steps past `value`, which has to be the current token. -/
def eat (value : String) : Parser Unit := do
  if (← get).is value then next else unexpected

/-- Steps past a word, which has to be the current token. -/
def eatWord : Parser String := do
  let cursor ← get
  if cursor.isWord then
    next
    return cursor.value
  else
    unexpected

/-- Steps past `value` if it is the current token. -/
def allow (value : String) : Parser Bool := do
  if (← get).is value then
    next
    return true
  else
    return false

/-- Whether the current token is exactly `value`. -/
def isAt (value : String) : Parser Bool := return (← get).is value

/-- Runs a parser with more kinds of trivia. -/
def withTrivia {α : Type} (trivia : List Trivia) (parser : Parser α) : Parser α := fun cursor =>
  let outer := cursor.trivia.length
  match parser { cursor with trivia := cursor.trivia ++ trivia } with
  | .ok value cursor => .ok value { cursor with trivia := cursor.trivia.take outer }
  | .error error cursor => .error error { cursor with trivia := cursor.trivia.take outer }

/-- Reads a construct; `body` is told the token at which it starts. -/
def construct {α : Type} (body : Nat → Parser α) : Parser α := do
  modify Cursor.skipLayout
  settle
  body (← get).current

end Parser
end Javascribe

/-
# Searching a token stream

A search walks from a token in one direction and stops at the first token
that is wanted, at the first that ends the search, or at EOF. A preview
shows the part of a line around a token.

Key definitions: `TokenStream.search`, `TokenStream.linePreview`.
-/
import Javascribe.Token

namespace Javascribe

/-- How a search moves. -/
inductive TokenStep where
  | next
  | previous
  | nextText
  | previousText
  deriving DecidableEq, Repr

/-- A part of a line, and the byte range of the token it was made for. -/
structure LinePreview where
  text : String
  focusStart : Nat
  focusStop : Nat

namespace TokenStream

variable (tokens : TokenStream)

/-- Whether a token is a word. -/
def isWord (id : Nat) : Bool := tokens.kind id == .word

/-- Whether a token is a number. -/
def isNumber (id : Nat) : Bool := tokens.kind id == .number

/-- Whether a token is a symbol. -/
def isSymbol (id : Nat) : Bool := tokens.kind id == .symbol

/-- Whether a token is a newline. -/
def isNewline (id : Nat) : Bool := tokens.kind id == .newline

/-- Whether a token is text. -/
def isText (id : Nat) : Bool := (tokens.kind id).isText

/-- Whether a token is the first text of its line. -/
def isStartOfLine (id : Nat) : Bool :=
  match tokens.previous id with
  | none => true
  | some previous => tokens.kind previous == .newline || tokens.kind previous == .indentation

/-- The token one step away. -/
def step : TokenStep → Nat → Option Nat
  | .next, id => some (tokens.next id)
  | .previous, id => tokens.previous id
  | .nextText, id => some (tokens.nextText id)
  | .previousText, id => tokens.previousText id

/-- A search of at most `fuel` steps. -/
def searchFrom (move : TokenStep) (wanted ends : Nat → Bool) : Nat → Nat → Option Nat
  | 0, _ => none
  | fuel + 1, id =>
    match tokens.step move id with
    | none => none
    | some id =>
      if tokens.isEof id then none
      else if wanted id then some id
      else if ends id then none
      else searchFrom move wanted ends fuel id

/-- The nearest token, in the direction of `move`, that is wanted, unless a
token that ends the search or EOF comes before it. A stream of `n` tokens is
left behind after `n` steps. -/
def search (start : Nat) (move : TokenStep) (wanted ends : Nat → Bool) : Option Nat :=
  tokens.searchFrom move wanted ends tokens.size start

/-- The first of up to `range` tokens before `id` on its line. -/
def previewStart : Nat → Nat → Nat
  | 0, id => id
  | range + 1, id =>
    match tokens.previous id with
    | some previous => if tokens.isNewline previous then id else previewStart range previous
    | none => id

/-- Adds up to `count` tokens from `current` on to a preview for `id`. -/
def previewFrom (id : Nat) : Nat → Nat → LinePreview → LinePreview
  | 0, _, preview => preview
  | count + 1, current, preview =>
    if tokens.isEof current || tokens.isNewline current then preview
    else if tokens.kind current == .indentation then
      previewFrom id count (tokens.next current) preview
    else
      let spaced := match tokens.previous current with
        | some previous => !tokens.areAdjacent previous current
        | none => false
      let text := if !preview.text.isEmpty && spaced then preview.text ++ " " else preview.text
      let value := tokens.value current
      let (focusStart, focusStop) :=
        if current == id then (text.utf8ByteSize, text.utf8ByteSize + value.utf8ByteSize)
        else (preview.focusStart, preview.focusStop)
      previewFrom id count (tokens.next current) ⟨text ++ value, focusStart, focusStop⟩

/-- The part of the line around `id` with up to `range` tokens on either side. -/
def linePreview (id range : Nat) : LinePreview :=
  tokens.previewFrom id (2 * range) (tokens.previewStart range id) ⟨"", 0, 0⟩

end TokenStream
end Javascribe

/-
# Reading a source as tokens

Each character belongs to at most one class, tried in the order symbol,
number, word, newline, blank. The class of the first character left decides
how far the next token reaches: one character for a symbol, `\r\n` or one
character for a newline, a maximal run for the others. Blanks are kept only
at the start of a line, as indentation.

Key definitions: `CharClass`, `Scan.lexemes`, `scan`.
-/
import Javascribe.Text.Alphanumeric
import Javascribe.Text.Escape
import Javascribe.Text.Whitespace
import Javascribe.Token

namespace Javascribe

/-- The classes of characters. -/
inductive CharClass where
  | symbol
  | number
  | word
  | newline
  | blank
  deriving DecidableEq, Repr

namespace CharClass

/-- The characters that are symbols. -/
def symbols : List Char :=
  ['|', '=', '`', ':', ';', '<', '>', '?', ',', '.', '-', '*', '+', '/', '%', '&', '!', '^', '~',
    '[', ']', '\x7b', '\x7d', '(', ')', '\'', '"', '@', '\\', '#']

/-- Whether `c` can be part of a word. -/
def isWordChar (c : Char) : Bool := Text.isAlphanumeric c || c == '_' || c == '$'

/-- Whether `c` separates tokens without ending a line. -/
def isBlank (c : Char) : Bool := Text.isWhitespace c && !Text.isLineBreak c

/-- The class of a character. -/
def of? (c : Char) : Option CharClass :=
  if symbols.contains c then some .symbol
  else if c.isDigit then some .number
  else if isWordChar c then some .word
  else if Text.isLineBreak c then some .newline
  else if isBlank c then some .blank
  else none

/-- Whether a run of a class goes on with `c`. -/
def continues : CharClass → Char → Bool
  | .number, c => c.isDigit || c == '.'
  | .word, c => isWordChar c
  | .blank, c => isBlank c
  | .symbol, _ | .newline, _ => false

/-- How far a token of a class that begins with `c` reaches into what follows. -/
def run (k : CharClass) (c : Char) (cs : List Char) : List Char :=
  match k, c, cs with
  | .newline, '\r', '\n' :: _ => ['\r', '\n']
  | _, _, _ => c :: cs.takeWhile k.continues

/-- What is left after the token. -/
def rest (k : CharClass) (c : Char) (cs : List Char) : List Char :=
  match k, c, cs with
  | .newline, '\r', '\n' :: cs => cs
  | _, _, _ => cs.dropWhile k.continues

theorem length_rest_le (k : CharClass) (c : Char) (cs : List Char) :
    (k.rest c cs).length ≤ cs.length := by
  unfold rest
  split
  · simp
  · exact (List.dropWhile_sublist _).length_le

/-- The kind of the tokens of a class. -/
def kind : CharClass → TokenKind
  | .symbol => .symbol
  | .number => .number
  | .word => .word
  | .newline => .newline
  | .blank => .indentation

end CharClass

/-- A character no token can hold. -/
structure ScanError where
  character : Char
  line : Nat
  offset : Nat
  deriving DecidableEq, Repr

/-- The message of a scan error. -/
def ScanError.message (error : ScanError) : String :=
  s!"Line {error.line}: Unexpected character '{Text.escaped error.character}'"

namespace Scan

/-- The lexemes of the characters left, and the line EOF is on. The start of
a line is remembered until the first text. -/
def lexemes (cs : List Char) (line offset : Nat) (atLineStart : Bool) :
    Except ScanError (List Lexeme × Nat) :=
  match cs with
  | [] => .ok ([], line)
  | c :: cs =>
    match CharClass.of? c with
    | none => .error ⟨c, line, offset⟩
    | some k =>
      let run := k.run c cs
      let lexeme : Lexeme := ⟨k.kind, String.ofList run, line, offset⟩
      let offset := offset + Text.byteLength run
      match k with
      | .newline => do
        let (tokens, last) ← lexemes (k.rest c cs) (line + 1) offset true
        return (lexeme :: tokens, last)
      | .blank => do
        let (tokens, last) ← lexemes (k.rest c cs) line offset atLineStart
        return (if atLineStart then lexeme :: tokens else tokens, last)
      | .symbol | .number | .word => do
        let (tokens, last) ← lexemes (k.rest c cs) line offset false
        return (lexeme :: tokens, last)
termination_by cs.length
decreasing_by
  all_goals
    have := CharClass.length_rest_le k c cs
    simp only [List.length_cons]
    omega

end Scan

/-- The token stream of a source, or the first character that fits no token. -/
def scan (source : String) : Except ScanError TokenStream := do
  let (lexemes, lastLine) ← Scan.lexemes source.toList 1 0 true
  return TokenStream.link lexemes lastLine source

end Javascribe

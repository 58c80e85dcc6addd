/-
# Token streams

A source is read as a sequence of tokens that ends in one EOF token. Words,
numbers and symbols are the text tokens; newlines and indentation are
layout. Tokens are addressed by their position. Each is linked to its
neighbours and to the nearest text token on either side; the forward links
of EOF lead to EOF, so stepping forward never leaves the stream. Offsets, lines
and positions are natural numbers: sources of less than 4 GiB are meant, where
all of them fit into 32 bits.

Key definitions: `TokenStream`, `TokenStream.link`, `TokenStream.get`,
`TokenStream.display`.
-/
import Javascribe.Text.Bytes

namespace Javascribe

/-- The kinds of tokens. -/
inductive TokenKind where
  | word
  | number
  | symbol
  | newline
  | indentation
  | eof
  deriving DecidableEq, Repr

namespace TokenKind

/-- Words, numbers and symbols are text. -/
def isText : TokenKind → Bool
  | .word | .number | .symbol => true
  | .newline | .indentation | .eof => false

/-- The word for a kind in messages. -/
def description : TokenKind → String
  | .word => "word"
  | .number => "number"
  | .symbol => "symbol"
  | .newline | .indentation | .eof => "token"

/-- The name of a kind. -/
def name : TokenKind → String
  | .word => "word"
  | .number => "number"
  | .symbol => "symbol"
  | .newline => "newline"
  | .indentation => "indentation"
  | .eof => "eof"

end TokenKind

/-- A piece of source text of one kind, with the line and byte offset where it starts. -/
structure Lexeme where
  kind : TokenKind
  value : String
  line : Nat
  start : Nat
  deriving DecidableEq, Repr

/-- The number of bytes of a lexeme. -/
def Lexeme.length (lexeme : Lexeme) : Nat := lexeme.value.utf8ByteSize

/-- The byte offset just past a lexeme. -/
def Lexeme.stop (lexeme : Lexeme) : Nat := lexeme.start + lexeme.length

/-- A lexeme in its place in a stream. -/
structure Token extends Lexeme where
  previous : Option Nat
  next : Nat
  previousText : Option Nat
  nextText : Nat
  deriving DecidableEq, Repr

/-- The tokens of a source: the ones before EOF, EOF, and the source itself. -/
structure TokenStream where
  body : Array Token
  last : Token
  source : String

namespace TokenStream

/-- The position before `index`. -/
def before : Nat → Option Nat
  | 0 => none
  | index + 1 => some index

/-- For each lexeme the nearest text before it, and the last text of all. -/
def previousTexts (lexemes : List (Lexeme × Nat)) : Array (Option Nat) × Option Nat :=
  lexemes.foldl
    (fun (links, text) (lexeme, index) =>
      (links.push text, if lexeme.kind.isText then some index else text))
    (#[], none)

/-- For each lexeme the nearest text after it, and the first text of all. -/
def nextTexts (lexemes : List (Lexeme × Nat)) (eof : Nat) : List Nat × Nat :=
  lexemes.foldr
    (fun (lexeme, index) (links, text) =>
      (text :: links, if lexeme.kind.isText then index else text))
    ([], eof)

/-- Links the lexemes of `source` and puts EOF, on line `eofLine`, after them. -/
def link (lexemes : List Lexeme) (eofLine : Nat) (source : String) : TokenStream :=
  let eof := lexemes.length
  let indexed := lexemes.zipIdx
  let (previousLinks, lastText) := previousTexts indexed
  let (nextLinks, _) := nextTexts indexed eof
  let body := (indexed.zip (previousLinks.toList.zip nextLinks)).map
    fun ((lexeme, index), (previousText, nextText)) =>
      { lexeme with
        previous := before index
        next := index + 1
        previousText := previousText
        nextText := nextText : Token }
  { body := body.toArray
    last :=
      { kind := .eof
        value := ""
        line := eofLine
        start := source.utf8ByteSize
        previous := before eof
        next := eof
        previousText := lastText
        nextText := eof }
    source := source }

/-- The position of EOF. -/
def eof (tokens : TokenStream) : Nat := tokens.body.size

/-- The number of tokens, EOF included. -/
def size (tokens : TokenStream) : Nat := tokens.body.size + 1

/-- Whether there is nothing but EOF. -/
def isEmpty (tokens : TokenStream) : Bool := tokens.body.isEmpty

/-- The token at a position; every position past the last one is EOF's. -/
def get (tokens : TokenStream) (id : Nat) : Token :=
  if h : id < tokens.body.size then tokens.body[id] else tokens.last

/-- The kind of a token. -/
def kind (tokens : TokenStream) (id : Nat) : TokenKind := (tokens.get id).kind

/-- The text of a token. -/
def value (tokens : TokenStream) (id : Nat) : String := (tokens.get id).value

/-- The line of a token. -/
def line (tokens : TokenStream) (id : Nat) : Nat := (tokens.get id).line

/-- Whether a position is EOF's. -/
def isEof (tokens : TokenStream) (id : Nat) : Bool := tokens.kind id == .eof

/-- The token after. -/
def next (tokens : TokenStream) (id : Nat) : Nat := (tokens.get id).next

/-- The token before. -/
def previous (tokens : TokenStream) (id : Nat) : Option Nat := (tokens.get id).previous

/-- The nearest text token after, or EOF. -/
def nextText (tokens : TokenStream) (id : Nat) : Nat := (tokens.get id).nextText

/-- The nearest text token before. -/
def previousText (tokens : TokenStream) (id : Nat) : Option Nat := (tokens.get id).previousText

/-- The first text token, or EOF. -/
def firstText (tokens : TokenStream) : Nat :=
  if (tokens.kind 0).isText then 0 else tokens.nextText 0

/-- Whether `b` follows `a` with nothing between them. -/
def areAdjacent (tokens : TokenStream) (a b : Nat) : Bool :=
  (tokens.get a).stop == (tokens.get b).start && tokens.next a == b

/-- The source from the start of `first` to the end of `last`. -/
def sourceBetween (tokens : TokenStream) (first last : Nat) : String :=
  match Text.slice tokens.source.toList (tokens.get first).start (tokens.get last).stop with
  | some chars => String.ofList chars
  | none => ""

/-- All tokens, EOF last. -/
def toList (tokens : TokenStream) : List Token := tokens.body.toList ++ [tokens.last]

/-- The text of the tokens one after another, with one space for indentation. -/
def display (tokens : TokenStream) : String :=
  String.join (tokens.toList.map fun token =>
    match token.kind with
    | .indentation => " "
    | _ => token.value)

end TokenStream
end Javascribe

/-
# Documents

Output is put together as a list of pieces and then written. The writer
indents a line when its first text is written, so an empty line has no
blanks. The text of a string literal is a piece of its own kind, since what
it holds is not code.

Key definitions: `Piece`, `Document`, `Writer`, `Document.render`.
-/

namespace Javascribe

/-- Pieces of output. A `unit` starts something of its own: after all that
stands before it and an empty line. -/
inductive Piece where
  | text (text : String)
  | verbatim (text : String)
  | line
  | indent
  | dedent
  | unit
  deriving DecidableEq, Repr

/-- Output before it is written. -/
abbrev Document := List Piece

namespace Document

/-- Text. -/
def text (text : String) : Document := [.text text]

/-- Texts one after another. -/
def texts (texts : List String) : Document := texts.map .text

/-- The end of a line. -/
def line : Document := [.line]

/-- Lines one level deeper. -/
def indented (lines : Document) : Document := [.indent] ++ lines ++ [.dedent]

/-- Documents with a separator between each two. -/
def separated (separator : Document) : List Document → Document
  | [] => []
  | [document] => document
  | document :: documents => document ++ separator ++ separated separator documents

/-- Documents with commas between them. -/
def commas (documents : List Document) : Document := separated (text ", ") documents

end Document

/-- What has been written, how deep the next line is indented, and whether
nothing has been written on the current line. -/
structure Writer where
  output : String := ""
  level : Nat := 0
  isAtLineStart : Bool := true

namespace Writer

/-- Nothing written. -/
def new : Writer := {}

/-- The blanks of one level. -/
def indentation : String := "  "

/-- Writes text; the first on a line is indented. -/
def write (writer : Writer) (text : String) : Writer :=
  if text.isEmpty then writer
  else if writer.isAtLineStart then
    { writer with
      output := writer.output ++ String.join (List.replicate writer.level indentation) ++ text
      isAtLineStart := false }
  else { writer with output := writer.output ++ text }

/-- Ends the line. -/
def writeLine (writer : Writer) : Writer :=
  { writer with output := writer.output.push '\n', isAtLineStart := true }

/-- Ends the line unless nothing is written on it. -/
def ensureLine (writer : Writer) : Writer :=
  if writer.isAtLineStart then writer else writer.writeLine

/-- Indents further. -/
def indent (writer : Writer) : Writer := { writer with level := writer.level + 1 }

/-- Indents less. -/
def dedent (writer : Writer) : Writer := { writer with level := writer.level - 1 }

/-- Starts a unit; the first one needs nothing before it. -/
def beginUnit (writer : Writer) : Writer :=
  if writer.output.isEmpty then writer else writer.ensureLine.writeLine

/-- Writes a piece. -/
def put (writer : Writer) : Piece → Writer
  | .text text | .verbatim text => writer.write text
  | .line => writer.writeLine
  | .indent => writer.indent
  | .dedent => writer.dedent
  | .unit => writer.beginUnit

/-- The number of bytes written. -/
def size (writer : Writer) : Nat := writer.output.utf8ByteSize

/-- Whether nothing has been written. -/
def isEmpty (writer : Writer) : Bool := writer.output.isEmpty

end Writer

/-- The text of a document, which ends in a line break unless it is empty. -/
def Document.render (document : Document) : String :=
  (document.foldl Writer.put Writer.new).ensureLine.output

end Javascribe

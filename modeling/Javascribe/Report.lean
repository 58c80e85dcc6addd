/-
# Reports

A report shows diagnostics one after the other: where each is, how serious
it is, its number and message, and, when it belongs to a piece of a known
source, the line with that piece underlined.

Key definitions: `Style`, `Report`, `Report.snippet?`, `Report.entry`,
`Report.render`.
-/
import Javascribe.Diagnostic
import Javascribe.Table
import Javascribe.Text.LineMap

namespace Javascribe

/-- How a piece of a report looks on a terminal. -/
inductive Style where
  | location
  | underline
  | number
  | severity (severity : Severity)
  deriving DecidableEq, Repr

namespace Style

/-- The terminal codes of a style. -/
def codes : Style → String
  | .location => "36"
  | .underline => "31"
  | .number => "94"
  | .severity .error => "1;31"
  | .severity .warning => "1;33"
  | .severity .message => "1;36"

/-- What switches a style on. -/
def start (style : Style) : String := "\x1b[" ++ style.codes ++ "m"

/-- What switches every style off. -/
def stop : String := "\x1b[0m"

/-- A text in a style. Where the text itself switches styles off, this one is
switched on again. -/
def paint (style : Style) (text : String) : String :=
  style.start ++ (stop ++ style.start).intercalate (text.splitOn stop) ++ stop

end Style

/-- The sources that a report can show, and whether it uses colours. -/
structure Report where
  isColored : Bool := false
  sources : Table String String := .empty

namespace Report

variable (report : Report)

/-- A text in a style, if the report uses colours. -/
def style (style : Style) (text : String) : String :=
  if report.isColored then style.paint text else text

/-- A number in at least three places. -/
def lineNumber (line : Nat) : String :=
  let digits := toString line
  String.ofList (List.replicate (3 - digits.length) ' ') ++ digits

/-- What stands below a line that has `column` bytes before a piece and
`length` bytes in it: tabs and spaces, and a mark for each character of the
piece. -/
def underlineFrom (column length : Nat) : List Char → Nat → List Char
  | [], _ => []
  | c :: cs, offset =>
    if offset < column then
      (if c == '\t' then '\t' else ' ') :: underlineFrom column length cs (offset + c.utf8Size)
    else if offset < column + length then
      '~' :: underlineFrom column length cs (offset + c.utf8Size)
    else []

/-- The underline of a piece of a line; a piece behind the line has one mark. -/
def underline (column length : Nat) (line : String) : String :=
  let marks := underlineFrom column length line.toList 0
  String.ofList (if marks.contains '~' then marks else marks ++ ['~'])

/-- The line of a diagnostic's piece with an underline, when both are known. -/
def snippet? (diagnostic : Diagnostic) : Option String := do
  let source ← if diagnostic.hasSpan then report.sources.find? diagnostic.file else none
  let map := LineMap.ofText source
  let line := map.lineOf diagnostic.start
  let start ← map.lineStart? line
  let text ← map.lineText? source line
  let marks := underline (diagnostic.start - start) diagnostic.length text
  return "\n  " ++ lineNumber line ++ "   " ++ text ++ "\n        "
    ++ report.style .underline marks

/-- The line of a diagnostic: its own, or that of its piece of a known source. -/
def lineOf? (diagnostic : Diagnostic) : Option Nat :=
  match diagnostic.line with
  | some line => some line
  | none =>
    if diagnostic.hasSpan then
      (report.sources.find? diagnostic.file).map fun source =>
        (LineMap.ofText source).lineOf diagnostic.start
    else none

/-- Where a diagnostic is. -/
def location (diagnostic : Diagnostic) : String :=
  let file := if diagnostic.file.isEmpty then "<unknown>" else diagnostic.file
  match report.lineOf? diagnostic with
  | some line => s!"{file}({line})"
  | none => file

/-- A diagnostic in a report. -/
def entry (diagnostic : Diagnostic) : String :=
  report.style .location (report.location diagnostic) ++ ": "
    ++ report.style (.severity diagnostic.severity) diagnostic.severity.label ++ " "
    ++ report.style .number s!"PBL{diagnostic.code}" ++ ": " ++ diagnostic.message
    ++ (report.snippet? diagnostic).getD ""

/-- Diagnostics, one after the other. -/
def render (diagnostics : List Diagnostic) : String :=
  "\n".intercalate (diagnostics.map report.entry)

end Report
end Javascribe

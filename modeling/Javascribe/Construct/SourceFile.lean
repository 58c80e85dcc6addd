/-
# Source files

A file is a package, imports and types; comments are passed over
everywhere. The parsers of all constructs are tied together here: each may
use the others one level deeper, down to the greatest depth.

Key definitions: `Production.parser`, `parseAt`, `Production.parse`,
`SourceTree.ofText?`.
-/
import Javascribe.Construct.Branch
import Javascribe.Construct.Chain
import Javascribe.Construct.Declaration
import Javascribe.Construct.Header
import Javascribe.Construct.Instantiation
import Javascribe.Construct.Lambda
import Javascribe.Construct.Literal
import Javascribe.Construct.Loop
import Javascribe.Construct.Operator
import Javascribe.Construct.Statement
import Javascribe.Token.Scan

namespace Javascribe
namespace Construct

open Javascribe.Parser

/-- What has been read of a file. -/
structure FileDraft where
  file : Tree.File
  annotations : List Tree.AnnotationUse

/-- The file with one more item. -/
def FileDraft.push (draft : FileDraft) (item : Tree.TopLevel) : FileDraft :=
  { draft with file := { draft.file with items := draft.file.items ++ [item] } }

/-- A type at the top of a file. The annotations read so far go to it. -/
def topLevelType (parse : Family) : Handler FileDraft := fun draft => do
  let cursor ← get
  let annotations := draft.annotations
  let rest := { draft with annotations := [] }
  match cursor.tokens.value (cursor.tokens.skipModifiers cursor.current) with
  | "interface" =>
    let type ← parse .interfaceDecl
    proceed (rest.push (.interfaceDecl { type with annotations }))
  | "enum" =>
    let type ← parse .enumDecl
    proceed (rest.push (.classDecl { type with annotations }))
  | _ =>
    let type ← parse .classDecl
    proceed (rest.push (.classDecl { type with annotations }))

/-- The parts of a file. -/
def fileGrammar (parse : Family) : Grammar FileDraft Tree.File where
  begin := fun _ => ⟨⟨none, []⟩, []⟩
  trivia := [.comment]
  steps := [.allow (.literal "package") fun draft => do
    let package ← parse .package
    proceed { draft with file := { draft.file with package := some package } }]
  rules := [
    ⟨.literal "import", fun draft => do
      let item ← parse .importDecl
      proceed (draft.push (.importDecl item))⟩,
    ⟨.literal ";", proceed⟩,
    ⟨.literal "@", fun draft => do
      let noted ← parse .annotationUse
      proceed { draft with annotations := draft.annotations ++ [noted] }⟩,
    ⟨.predicate TokenStream.startsObject, topLevelType parse⟩]
  complete := fun draft => do
    ensure draft.annotations.isEmpty
    return draft.file

/-- A file. -/
def file (parse : Family) : Parser Tree.File := (fileGrammar parse).parse

end Construct

/-- The parser of a construct, over parsers for the constructs in it. -/
def Production.parser (parse : Family) : Family
  | .statement => Construct.statement parse
  | .block => Construct.block parse
  | .typeRef => Construct.typeRef parse
  | .typeParameter => Construct.typeParameter parse
  | .operator => Construct.operator
  | .reference => Construct.reference
  | .literal => Construct.literal parse
  | .call => Construct.call parse
  | .chain => Construct.chain parse
  | .instantiation => Construct.instantiation parse
  | .lambda => Construct.lambda parse
  | .declaration => Construct.declaration parse
  | .instruction => Construct.instruction parse
  | .assertion => Construct.assertion parse
  | .ifElse => Construct.ifElse parse
  | .forLoop => Construct.forLoop parse
  | .whileLoop => Construct.whileLoop parse
  | .doWhileLoop => Construct.doWhileLoop parse
  | .switch => Construct.switch parse
  | .tryCatch => Construct.tryCatch parse
  | .package => Construct.package
  | .importDecl => Construct.importDecl parse
  | .annotationUse => Construct.annotationUse parse
  | .comment => Parser.construct fun _ => Parser.skipComment Parser.next
  | .classDecl => Construct.classDecl parse
  | .interfaceDecl => Construct.interfaceDecl parse
  | .enumDecl => Construct.enumDecl parse
  | .body => Construct.body parse
  | .member => Construct.member parse
  | .signature => Construct.signature parse
  | .file => Construct.file parse

/-- The parsers of all constructs, nested at most `levels` deep. -/
def parseAt : Nat → Family
  | 0, _ => Parser.fail .stalled
  | levels + 1, production => Parser.nested (production.parser (parseAt levels))

/-- The parser of a construct. The innermost level is too deep for any cursor. -/
def Production.parse (production : Production) : Parser production.Result :=
  parseAt (maxParserDepth + 1) production

/-- Why a source cannot be read. -/
inductive SourceError where
  | scan (error : ScanError)
  | parse (error : ParseError)

/-- The message of a source error. -/
def SourceError.message : SourceError → String
  | .scan e => e.message
  | .parse e => e.message

namespace SourceTree

/-- The tree of a stream of tokens. -/
def ofTokens? (tokens : TokenStream) : Except ParseError SourceTree :=
  match Production.file.parse (.ofTokens tokens) with
  | .ok file _ => .ok { file with tokens := tokens }
  | .error error _ => .error error

/-- The tree of a source. -/
def ofText? (text : String) : Except SourceError SourceTree :=
  match scan text with
  | .error error => .error (.scan error)
  | .ok tokens =>
    match ofTokens? tokens with
    | .error error => .error (.parse error)
    | .ok tree => .ok tree

end SourceTree
end Javascribe

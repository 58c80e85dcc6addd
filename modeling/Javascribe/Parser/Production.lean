/-
# Productions

The constructs of the language by name, with what each is read as. The
constructs contain each other, so each is written over a family of parsers
for all of them.

Key definitions: `Production`, `Production.Result`, `Family`.
-/
import Javascribe.Parser.Grammar
import Javascribe.Tree.Basic

namespace Javascribe

/-- The constructs. -/
inductive Production where
  | statement
  | block
  | typeRef
  | typeParameter
  | operator
  | reference
  | literal
  | call
  | chain
  | instantiation
  | lambda
  | declaration
  | instruction
  | assertion
  | ifElse
  | forLoop
  | whileLoop
  | doWhileLoop
  | switch
  | tryCatch
  | package
  | importDecl
  | annotationUse
  | comment
  | classDecl
  | interfaceDecl
  | enumDecl
  | body
  | member
  | signature
  | file
  deriving DecidableEq, Repr

/-- Parameters, thrown types and block of a method or constructor. -/
structure Tree.Signature where
  parameters : List Variable
  throws : List TypeRef
  block : Option Block

namespace Production

/-- What a construct is read as. -/
@[reducible]
def Result : Production → Type
  | statement => Tree.Statement
  | block => Tree.Block
  | typeRef => TypeRef
  | typeParameter => String
  | operator => Tree.OperatorUse
  | reference => Tree.Reference
  | literal => Tree.Literal
  | call => Tree.Call
  | chain => Tree.Chain
  | instantiation => Tree.Instantiation
  | lambda => Tree.Lambda
  | declaration => Tree.Variable
  | instruction => Tree.Instruction
  | assertion => Tree.Assertion
  | ifElse => Tree.IfElse
  | forLoop => Tree.ForLoop
  | whileLoop => Tree.WhileLoop
  | doWhileLoop => Tree.DoWhileLoop
  | switch => Tree.Switch
  | tryCatch => Tree.TryCatch
  | package => Tree.Package
  | importDecl => Tree.Import
  | annotationUse => Tree.AnnotationUse
  | comment => Unit
  | classDecl => Tree.ClassDecl
  | interfaceDecl => Tree.InterfaceDecl
  | enumDecl => Tree.ClassDecl
  | body => Tree.ObjectBody
  | member => Tree.Member
  | signature => Tree.Signature
  | file => Tree.File

/-- The name of a construct. -/
def name : Production → String
  | statement => "statement"
  | block => "block"
  | typeRef => "type"
  | typeParameter => "generic parameter"
  | operator => "operator"
  | reference => "reference"
  | literal => "literal"
  | call => "function call"
  | chain => "property chain"
  | instantiation => "instantiation"
  | lambda => "lambda"
  | declaration => "variable declaration"
  | instruction => "instruction"
  | assertion => "assertion"
  | ifElse => "if/else"
  | forLoop => "for loop"
  | whileLoop => "while loop"
  | doWhileLoop => "do/while loop"
  | switch => "switch"
  | tryCatch => "try/catch"
  | package => "package"
  | importDecl => "import"
  | annotationUse => "annotation"
  | comment => "comment"
  | classDecl => "class"
  | interfaceDecl => "interface"
  | enumDecl => "enum"
  | body => "object body"
  | member => "member"
  | signature => "method"
  | file => "java file"

end Production

/-- A parser for each construct. -/
abbrev Family := (production : Production) → Parser production.Result

end Javascribe

/-
# Outlines of trees

A tree is shown as one line: `(name field field …)`, with the fields of a
construct in a fixed order. Strings are quoted, flags are `1` and `0`,
tokens are `#7`, what is absent is `_` and lists are in square brackets.

Key definitions: `Tree.Statement.outline`, `Tree.ClassDecl.outline`,
`Tree.TopLevel.outline`.
-/
import Javascribe.Tree.Basic

namespace Javascribe
namespace Outline

/-- Two lower-case hexadecimal digits. -/
def hexPair (n : Nat) : String :=
  String.ofList [Nat.digitChar (n / 16), Nat.digitChar (n % 16)]

/-- A character inside quotes. -/
def quotedChar (c : Char) : String :=
  match c with
  | '"' => "\\\""
  | '\\' => "\\\\"
  | '\x08' => "\\b"
  | '\x0c' => "\\f"
  | '\n' => "\\n"
  | '\r' => "\\r"
  | '\t' => "\\t"
  | c => if c.toNat < 0x20 then "\\u00" ++ hexPair c.toNat else c.toString

/-- A string in quotes. -/
def quoted (s : String) : String := "\"" ++ String.join (s.toList.map quotedChar) ++ "\""

/-- A construct: its name and its fields. -/
def form (name : String) (fields : List String) : String :=
  "(" ++ " ".intercalate (name :: fields) ++ ")"

/-- A list. -/
def list (items : List String) : String := "[" ++ " ".intercalate items ++ "]"

/-- A list of strings. -/
def strings (items : List String) : String := list (items.map quoted)

/-- A flag. -/
def flag (b : Bool) : String := if b then "1" else "0"

/-- A token. -/
def tokenText (id : Nat) : String := s!"#{id}"

/-- What may be absent. -/
def option : Option String → String
  | some s => s
  | none => "_"

end Outline

open Outline

/-- The outline of modifiers. -/
def Modifiers.outline (modifiers : Modifiers) : String :=
  form "mod" [modifiers.access.name, flag modifiers.isStatic, flag modifiers.isFinal,
    flag modifiers.isAbstract]

namespace TypeRef

mutual

/-- The outline of a type. -/
def outline : TypeRef → String
  | ⟨names, arguments, dimensions, id⟩ =>
    form "type" [strings names, list (outlines arguments), toString dimensions, tokenText id]

/-- The outlines of types. -/
def outlines : List TypeRef → List String
  | [] => []
  | type :: types => outline type :: outlines types

end

end TypeRef

namespace Tree

/-- The outline of a package. -/
def Package.outline (p : Package) : String := form "package" [strings p.names, tokenText p.token]

/-- The outline of an import. -/
def Import.outline (i : Import) : String :=
  form "import" [strings i.names, option (i.default.map quoted), strings i.group,
    flag i.isWildcard, flag i.isStatic, tokenText i.token]

/-- The outline of a name. -/
def Reference.outline (r : Reference) : String := form "ref" [quoted r.name, tokenText r.token]

/-- The outline of an operator. -/
def OperatorUse.outline (o : OperatorUse) : String :=
  form "op" [o.operation.symbol, tokenText o.token]

/-- The outline of a variable. -/
def Variable.outline (v : Variable) : String :=
  form "var" [flag v.isFinal, v.type.outline, quoted v.name, flag v.isVariadic, tokenText v.token]

/-- The outline of a parameter. -/
def LambdaParameter.outline : LambdaParameter → String
  | .untyped r => r.outline
  | .typed d => d.outline

mutual

/-- The outline of an annotation. -/
def AnnotationUse.outline : AnnotationUse → String
  | ⟨name, arguments, id⟩ =>
    form "annotation" [quoted name, list (Statement.outlines arguments), tokenText id]

/-- The outlines of annotations. -/
def AnnotationUse.outlines : List AnnotationUse → List String
  | [] => []
  | a :: as => a.outline :: AnnotationUse.outlines as

/-- The outline of a statement. -/
def Statement.outline : Statement → String
  | ⟨left, operator, right, isParenthesized, cast, annotations, id⟩ =>
    form "stmt" [Node.optionOutline left, option (operator.map OperatorUse.outline),
      Statement.optionOutline right, flag isParenthesized, option (cast.map TypeRef.outline),
      list (AnnotationUse.outlines annotations), tokenText id]

/-- The outlines of statements. -/
def Statement.outlines : List Statement → List String
  | [] => []
  | s :: ss => s.outline :: Statement.outlines ss

/-- The outline of a statement that may be absent. -/
def Statement.optionOutline : Option Statement → String
  | some s => s.outline
  | none => "_"

/-- The outline of a node that may be absent. -/
def Node.optionOutline : Option Node → String
  | some n => n.outline
  | none => "_"

/-- The outline of a block. -/
def Block.outline : Block → String
  | ⟨statements, id⟩ => form "block" [list (Statement.outlines statements), tokenText id]

/-- The outlines of blocks. -/
def Block.outlines : List Block → List String
  | [] => []
  | b :: bs => b.outline :: Block.outlines bs

/-- The outline of a block that may be absent. -/
def Block.optionOutline : Option Block → String
  | some b => b.outline
  | none => "_"

/-- The outline of an instruction. -/
def Instruction.outline : Instruction → String
  | ⟨kind, value, id⟩ =>
    form "instruction" [kind.keyword, Statement.optionOutline value, tokenText id]

/-- The outline of an assertion. -/
def Assertion.outline : Assertion → String
  | ⟨condition, message, id⟩ =>
    form "assert" [condition.outline, Statement.optionOutline message, tokenText id]

/-- The outline of a literal. -/
def Literal.outline : Literal → String
  | ⟨kind, value, elements, id⟩ =>
    form "literal" [kind.name, quoted value, list (Statement.outlines elements), tokenText id]

/-- The outline of a literal that may be absent. -/
def Literal.optionOutline : Option Literal → String
  | some l => l.outline
  | none => "_"

/-- The outline of a lambda's body. -/
def LambdaBody.outline : LambdaBody → String
  | .block b => b.outline
  | .statement s => s.outline

/-- The outline of a lambda. -/
def Lambda.outline : Lambda → String
  | ⟨parameters, body, id⟩ =>
    form "lambda" [list (parameters.map LambdaParameter.outline), body.outline, tokenText id]

/-- The outline of a call. -/
def Call.outline : Call → String
  | ⟨name, typeArguments, arguments, id⟩ =>
    form "call" [option (name.map quoted), list (TypeRef.outlines typeArguments),
      list (Statement.outlines arguments), tokenText id]

/-- The outline of an instantiation. -/
def Instantiation.outline : Instantiation → String
  | ⟨constructed, arguments, arraySize, arrayLiteral, body, id⟩ =>
    form "new" [constructed.outline, list (Statement.outlines arguments),
      Statement.optionOutline arraySize, Literal.optionOutline arrayLiteral,
      ObjectBody.optionOutline body, tokenText id]

/-- The outline of a chain of conditions. -/
def IfElse.outline : IfElse → String
  | ⟨conditions, blocks, id⟩ =>
    form "if" [list (Statement.outlines conditions), list (Block.outlines blocks), tokenText id]

/-- The outline of a `for` loop. -/
def ForLoop.outline : ForLoop → String
  | ⟨initialization, condition, increment, iterable, isEnhanced, block, id⟩ =>
    form "for" [Statement.optionOutline initialization, Statement.optionOutline condition,
      Statement.optionOutline increment, Statement.optionOutline iterable, flag isEnhanced,
      block.outline, tokenText id]

/-- The outline of a `while` loop. -/
def WhileLoop.outline : WhileLoop → String
  | ⟨condition, block, id⟩ => form "while" [condition.outline, block.outline, tokenText id]

/-- The outline of a `do` loop. -/
def DoWhileLoop.outline : DoWhileLoop → String
  | ⟨block, condition, id⟩ => form "dowhile" [block.outline, condition.outline, tokenText id]

/-- The outline of a switch. -/
def Switch.outline : Switch → String
  | ⟨value, cases, blocks, default, id⟩ =>
    form "switch" [value.outline, list (Statement.outlines cases), list (Block.outlines blocks),
      Block.optionOutline default, tokenText id]

/-- The outline of a `try`. -/
def TryCatch.outline : TryCatch → String
  | ⟨block, exceptionTypes, exceptionNames, catchBlocks, finallyBlock, id⟩ =>
    form "try" [block.outline, list (exceptionTypes.map fun types => list (TypeRef.outlines types)),
      list (exceptionNames.map Reference.outline), list (Block.outlines catchBlocks),
      Block.optionOutline finallyBlock, tokenText id]

/-- The outline of a link of a chain. -/
def Property.outline : Property → String
  | .reference r => r.outline
  | .call c => c.outline
  | .type t => t.outline
  | .index s => form "index" [s.outline]
  | .head n => form "head" [n.outline]

/-- The outlines of links. -/
def Property.outlines : List Property → List String
  | [] => []
  | p :: ps => p.outline :: Property.outlines ps

/-- The outline of a chain. -/
def Chain.outline : Chain → String
  | ⟨properties, id⟩ => form "chain" [list (Property.outlines properties), tokenText id]

/-- The outline of a conditional expression. -/
def Ternary.outline : Ternary → String
  | ⟨condition, left, right, id⟩ =>
    form "ternary" [condition.outline, left.outline, right.outline, tokenText id]

/-- The outline of a node. -/
def Node.outline : Node → String
  | .statement n => n.outline
  | .instruction n => n.outline
  | .assertion n => n.outline
  | .literal n => n.outline
  | .lambda n => n.outline
  | .reference n => n.outline
  | .call n => n.outline
  | .instantiation n => n.outline
  | .classDecl n => n.outline
  | .declaration n => n.outline
  | .ifElse n => n.outline
  | .forLoop n => n.outline
  | .whileLoop n => n.outline
  | .doWhileLoop n => n.outline
  | .switch n => n.outline
  | .tryCatch n => n.outline
  | .chain n => n.outline
  | .ternary n => n.outline

/-- The outline of a class. -/
def ClassDecl.outline : ClassDecl → String
  | ⟨modifiers, name, typeParameters, extended, implemented, constructors, members,
      instanceInitializers, staticInitializers, annotations, isEnum, id⟩ =>
    form "class" [modifiers.outline, quoted name, strings typeParameters,
      list (TypeRef.outlines extended), list (TypeRef.outlines implemented),
      list (Method.outlines constructors), list (Member.outlines members),
      list (Block.outlines instanceInitializers), list (Block.outlines staticInitializers),
      list (AnnotationUse.outlines annotations), flag isEnum, tokenText id]

/-- The outline of an interface. -/
def InterfaceDecl.outline : InterfaceDecl → String
  | ⟨modifiers, name, typeParameters, extended, members, annotations, id⟩ =>
    form "interface" [modifiers.outline, quoted name, strings typeParameters,
      list (TypeRef.outlines extended), list (Member.outlines members),
      list (AnnotationUse.outlines annotations), tokenText id]

/-- The outline of a body. -/
def ObjectBody.outline : ObjectBody → String
  | ⟨constructors, members, instanceInitializers, staticInitializers⟩ =>
    form "body" [list (Method.outlines constructors), list (Member.outlines members),
      list (Block.outlines instanceInitializers), list (Block.outlines staticInitializers)]

/-- The outline of a body that may be absent. -/
def ObjectBody.optionOutline : Option ObjectBody → String
  | some b => b.outline
  | none => "_"

/-- The outline of a member. -/
def Member.outline : Member → String
  | .field m => m.outline
  | .method m => m.outline
  | .classDecl m => m.outline
  | .interfaceDecl m => m.outline

/-- The outlines of members. -/
def Member.outlines : List Member → List String
  | [] => []
  | m :: ms => m.outline :: Member.outlines ms

/-- The outline of a field. -/
def Field.outline : Field → String
  | ⟨modifiers, type, name, value, annotations, id⟩ =>
    form "field" [modifiers.outline, type.outline, quoted name, Statement.optionOutline value,
      list (AnnotationUse.outlines annotations), tokenText id]

/-- The outline of a method. -/
def Method.outline : Method → String
  | ⟨modifiers, typeParameters, type, name, parameters, throws, block, annotations,
      isConstructor, id⟩ =>
    form "method" [modifiers.outline, list (TypeRef.outlines typeParameters),
      option (type.map TypeRef.outline), quoted name, list (parameters.map Variable.outline),
      list (TypeRef.outlines throws), Block.optionOutline block,
      list (AnnotationUse.outlines annotations), flag isConstructor, tokenText id]

/-- The outlines of methods. -/
def Method.outlines : List Method → List String
  | [] => []
  | m :: ms => m.outline :: Method.outlines ms

end

/-- The outline of an item of a file. -/
def TopLevel.outline : TopLevel → String
  | .importDecl i => i.outline
  | .classDecl c => c.outline
  | .interfaceDecl i => i.outline

end Tree
end Javascribe

/-
# Outlines of constructs

Key definitions: `Production.outline`.
-/
import Javascribe.Parser.Production
import Javascribe.Tree.Outline

namespace Javascribe

open Outline

/-- The outline of what a construct was read as. -/
def Production.outline : (production : Production) → production.Result → String
  | .statement, result => Tree.Statement.outline result
  | .block, result => Tree.Block.outline result
  | .typeRef, result => TypeRef.outline result
  | .typeParameter, result => quoted result
  | .operator, result => Tree.OperatorUse.outline result
  | .reference, result => Tree.Reference.outline result
  | .literal, result => Tree.Literal.outline result
  | .call, result => Tree.Call.outline result
  | .chain, result => Tree.Chain.outline result
  | .instantiation, result => Tree.Instantiation.outline result
  | .lambda, result => Tree.Lambda.outline result
  | .declaration, result => Tree.Variable.outline result
  | .instruction, result => Tree.Instruction.outline result
  | .assertion, result => Tree.Assertion.outline result
  | .ifElse, result => Tree.IfElse.outline result
  | .forLoop, result => Tree.ForLoop.outline result
  | .whileLoop, result => Tree.WhileLoop.outline result
  | .doWhileLoop, result => Tree.DoWhileLoop.outline result
  | .switch, result => Tree.Switch.outline result
  | .tryCatch, result => Tree.TryCatch.outline result
  | .package, result => Tree.Package.outline result
  | .importDecl, result => Tree.Import.outline result
  | .annotationUse, result => Tree.AnnotationUse.outline result
  | .comment, _ => "()"
  | .classDecl, result => Tree.ClassDecl.outline result
  | .interfaceDecl, result => Tree.InterfaceDecl.outline result
  | .enumDecl, result => Tree.ClassDecl.outline result
  | .body, result => Tree.ObjectBody.outline result
  | .member, result => Tree.Member.outline result
  | .signature, result =>
    list [list (result.parameters.map (·.outline)), list (result.throws.map (·.outline)),
      option (result.block.map (·.outline))]
  | .file, result => list (result.items.map (·.outline))

end Javascribe

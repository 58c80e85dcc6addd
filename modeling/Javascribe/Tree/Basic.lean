/-
# Syntax trees

The constructs of a source file. A statement is a left side, an operator
and a right side, any of which may be missing: a bare value has only a left
side, `-x` only an operator and a right side, `x++` only a left side and an
operator. Everything that can stand on the left is a node. Each construct
keeps the token it starts at.

Key definitions: `Tree.Statement`, `Tree.Node`, `Tree.Block`,
`Tree.ClassDecl`, `Tree.InterfaceDecl`, `Tree.Member`, `SourceTree`.
-/
import Javascribe.Token
import Javascribe.Tree.Modifiers
import Javascribe.Tree.Operator
import Javascribe.Tree.TypeRef

namespace Javascribe
namespace Tree

/-- `package a.b.c;` -/
structure Package where
  names : List String
  token : Nat

/-- The package as it is written. -/
def Package.text (package : Package) : String := ".".intercalate package.names

/-- An import. `import a.b.C;` names `C`; `import static a.b.C.m;` names the
class `C`; `import a.b.*;` names nothing; `import a.b.{C, D};` lists a group. -/
structure Import where
  names : List String
  default : Option String
  group : List String
  isWildcard : Bool
  isStatic : Bool
  token : Nat

/-- A bare name. -/
structure Reference where
  name : String
  token : Nat

/-- An operator in its place. -/
structure OperatorUse where
  operation : Operator
  token : Nat

/-- `[final] Type [...] name`: a local variable or a parameter. -/
structure Variable where
  isFinal : Bool
  type : TypeRef
  name : String
  isVariadic : Bool
  token : Nat

/-- A parameter of a lambda. -/
inductive LambdaParameter where
  | untyped (reference : Reference)
  | typed (declaration : Variable)

/-- The name of a parameter. -/
def LambdaParameter.name : LambdaParameter → String
  | .untyped r => r.name
  | .typed d => d.name

/-- The instructions that leave a block. -/
inductive InstructionKind where
  | returns
  | throws
  | continues
  | breaks
  deriving DecidableEq, Repr

namespace InstructionKind

/-- The instruction a keyword stands for. -/
def ofKeyword? : String → Option InstructionKind
  | "return" => some .returns
  | "throw" => some .throws
  | "continue" => some .continues
  | "break" => some .breaks
  | _ => none

/-- How an instruction is written. -/
def keyword : InstructionKind → String
  | .returns => "return"
  | .throws => "throw"
  | .continues => "continue"
  | .breaks => "break"

end InstructionKind

/-- The kinds of literals: `true`, `false` and `null` are keywords. -/
inductive LiteralKind where
  | keyword
  | string
  | number
  | array
  deriving DecidableEq, Repr

/-- The name of a kind. -/
def LiteralKind.name : LiteralKind → String
  | .keyword => "keyword"
  | .string => "string"
  | .number => "number"
  | .array => "array"

mutual

/-- `@Name(arguments)` -/
structure AnnotationUse where
  name : String
  arguments : List Statement
  token : Nat

/-- A statement or an expression. The cast applies to the left side. -/
structure Statement where
  left : Option Node
  operator : Option OperatorUse
  right : Option Statement
  isParenthesized : Bool
  cast : Option TypeRef
  annotations : List AnnotationUse
  token : Nat

/-- Statements between braces, or one statement standing for them. -/
structure Block where
  statements : List Statement
  token : Nat

/-- `return`, `throw`, `continue` or `break`, with a value. -/
structure Instruction where
  kind : InstructionKind
  value : Option Statement
  token : Nat

/-- `assert condition : message` -/
structure Assertion where
  condition : Statement
  message : Option Statement
  token : Nat

/-- A literal: its source text, or the elements of an array. -/
structure Literal where
  kind : LiteralKind
  value : String
  elements : List Statement
  token : Nat

/-- What a lambda computes. -/
inductive LambdaBody where
  | block (block : Block)
  | statement (statement : Statement)

/-- `(parameters) -> body` -/
structure Lambda where
  parameters : List LambdaParameter
  body : LambdaBody
  token : Nat

/-- `name(arguments)`; a call that continues another value has no name. -/
structure Call where
  name : Option String
  typeArguments : List TypeRef
  arguments : List Statement
  token : Nat

/-- `new T(arguments)`, `new T(arguments)` with a body, `new T[size]` or
`new T[]` with a literal. -/
structure Instantiation where
  constructed : TypeRef
  arguments : List Statement
  arraySize : Option Statement
  arrayLiteral : Option Literal
  body : Option ObjectBody
  token : Nat

/-- A chain of `if` and `else`. One block more than conditions means that
the last block is an `else`. -/
structure IfElse where
  conditions : List Statement
  blocks : List Block
  token : Nat

/-- `for (initialization; condition; increment)` or `for (T x : iterable)`. -/
structure ForLoop where
  initialization : Option Statement
  condition : Option Statement
  increment : Option Statement
  iterable : Option Statement
  isEnhanced : Bool
  block : Block
  token : Nat

/-- `while (condition)` -/
structure WhileLoop where
  condition : Statement
  block : Block
  token : Nat

/-- `do … while (condition)` -/
structure DoWhileLoop where
  block : Block
  condition : Statement
  token : Nat

/-- A switch: one block for each case, and the default block. -/
structure Switch where
  value : Statement
  cases : List Statement
  blocks : List Block
  default : Option Block
  token : Nat

/-- `try`, its catch clauses (types, name and block of each) and `finally`. -/
structure TryCatch where
  block : Block
  exceptionTypes : List (List TypeRef)
  exceptionNames : List Reference
  catchBlocks : List Block
  finallyBlock : Option Block
  token : Nat

/-- A link of a chain. A type ends a chain that names a declaration's type;
a head is a first value that is neither a name nor a call. -/
inductive Property where
  | reference (reference : Reference)
  | call (call : Call)
  | type (type : TypeRef)
  | index (statement : Statement)
  | head (node : Node)

/-- `a.b().c[0].d` -/
structure Chain where
  properties : List Property
  token : Nat

/-- `condition ? left : right` -/
structure Ternary where
  condition : Statement
  left : Statement
  right : Statement
  token : Nat

/-- What can stand on the left side of a statement. -/
inductive Node where
  | statement (statement : Statement)
  | instruction (instruction : Instruction)
  | assertion (assertion : Assertion)
  | literal (literal : Literal)
  | lambda (lambda : Lambda)
  | reference (reference : Reference)
  | call (call : Call)
  | instantiation (instantiation : Instantiation)
  | classDecl (classDecl : ClassDecl)
  | declaration (declaration : Variable)
  | ifElse (ifElse : IfElse)
  | forLoop (loop : ForLoop)
  | whileLoop (loop : WhileLoop)
  | doWhileLoop (loop : DoWhileLoop)
  | switch (switch : Switch)
  | tryCatch (tryCatch : TryCatch)
  | chain (chain : Chain)
  | ternary (ternary : Ternary)

/-- A class. An enum is a class with one public static final field for each
of its constants. -/
structure ClassDecl where
  modifiers : Modifiers
  name : String
  typeParameters : List String
  extended : List TypeRef
  implemented : List TypeRef
  constructors : List Method
  members : List Member
  instanceInitializers : List Block
  staticInitializers : List Block
  annotations : List AnnotationUse
  isEnum : Bool
  token : Nat

/-- An interface. -/
structure InterfaceDecl where
  modifiers : Modifiers
  name : String
  typeParameters : List String
  extended : List TypeRef
  members : List Member
  annotations : List AnnotationUse
  token : Nat

/-- What stands between the braces of a class, interface or enum. -/
structure ObjectBody where
  constructors : List Method
  members : List Member
  instanceInitializers : List Block
  staticInitializers : List Block

/-- A member of a class or interface. -/
inductive Member where
  | field (field : Field)
  | method (method : Method)
  | classDecl (classDecl : ClassDecl)
  | interfaceDecl (interfaceDecl : InterfaceDecl)

/-- `Type name = value;` -/
structure Field where
  modifiers : Modifiers
  type : TypeRef
  name : String
  value : Option Statement
  annotations : List AnnotationUse
  token : Nat

/-- A method or constructor. A constructor has no type; an abstract method
has no block. -/
structure Method where
  modifiers : Modifiers
  typeParameters : List TypeRef
  type : Option TypeRef
  name : String
  parameters : List Variable
  throws : List TypeRef
  block : Option Block
  annotations : List AnnotationUse
  isConstructor : Bool
  token : Nat

end

namespace Statement

/-- The statement in which nothing was read. -/
def empty (token : Nat) : Statement := ⟨none, none, none, false, none, [], token⟩

/-- A statement that is nothing but its left side. -/
def ofNode (node : Node) (token : Nat) : Statement := { empty token with left := some node }

/-- The operator, without its place. -/
def operation? (statement : Statement) : Option Operator := statement.operator.map (·.operation)

/-- Whether nothing was read. -/
def isEmpty (statement : Statement) : Bool :=
  statement.left.isNone && statement.operator.isNone && statement.right.isNone

/-- Whether the statement is nothing but its left side. -/
def isSimple (statement : Statement) : Bool :=
  statement.operator.isNone && statement.right.isNone && statement.cast.isNone

/-- Whether there is something to compute: a left side or an operator. -/
def hasOperand (statement : Statement) : Bool :=
  statement.left.isSome || statement.operator.isSome

end Statement

/-- Whether a block has nothing but empty statements. -/
def Block.isEmpty (block : Block) : Bool := block.statements.all (·.isEmpty)

/-- The `else` block of a chain of conditions. -/
def IfElse.elseBlock? (ifElse : IfElse) : Option Block :=
  if ifElse.conditions.length < ifElse.blocks.length then ifElse.blocks.getLast? else none

namespace Node

/-- The name of a kind of node. -/
def kindName : Node → String
  | .statement _ => "statement"
  | .instruction _ => "instruction"
  | .assertion _ => "assertion"
  | .literal _ => "literal"
  | .lambda _ => "lambda"
  | .reference _ => "reference"
  | .call _ => "function call"
  | .instantiation _ => "instantiation"
  | .classDecl _ => "class"
  | .declaration _ => "variable declaration"
  | .ifElse _ => "if/else"
  | .forLoop _ => "for loop"
  | .whileLoop _ => "while loop"
  | .doWhileLoop _ => "do/while loop"
  | .switch _ => "switch"
  | .tryCatch _ => "try/catch"
  | .chain _ => "property chain"
  | .ternary _ => "ternary"

/-- Whether a node ends its statement without a semicolon. -/
def isSelfTerminating : Node → Bool
  | .assertion _ | .classDecl _ | .ifElse _ | .forLoop _ | .whileLoop _ | .switch _
  | .tryCatch _ => true
  | _ => false

/-- The token a node starts at. -/
def token : Node → Nat
  | .statement s => s.token
  | .instruction i => i.token
  | .assertion a => a.token
  | .literal l => l.token
  | .lambda l => l.token
  | .reference r => r.token
  | .call c => c.token
  | .instantiation i => i.token
  | .classDecl c => c.token
  | .declaration d => d.token
  | .ifElse i => i.token
  | .forLoop l => l.token
  | .whileLoop l => l.token
  | .doWhileLoop l => l.token
  | .switch s => s.token
  | .tryCatch t => t.token
  | .chain c => c.token
  | .ternary t => t.token

end Node

namespace Member

/-- The name of a member. -/
def name : Member → String
  | .field f => f.name
  | .method m => m.name
  | .classDecl c => c.name
  | .interfaceDecl i => i.name

/-- The modifiers of a member. -/
def modifiers : Member → Modifiers
  | .field f => f.modifiers
  | .method m => m.modifiers
  | .classDecl c => c.modifiers
  | .interfaceDecl i => i.modifiers

/-- The token a member starts at. -/
def token : Member → Nat
  | .field f => f.token
  | .method m => m.token
  | .classDecl c => c.token
  | .interfaceDecl i => i.token

/-- The method, when the member is one. -/
def method? : Member → Option Method
  | .method m => some m
  | _ => none

/-- The field, when the member is one. -/
def field? : Member → Option Field
  | .field f => some f
  | _ => none

/-- The member with the modifiers and annotations that stood before it. -/
def withPending (modifiers : Modifiers) (annotations : List AnnotationUse) : Member → Member
  | .field f => .field { f with modifiers, annotations }
  | .method m => .method { m with modifiers, annotations }
  | .classDecl c => .classDecl { c with modifiers, annotations }
  | .interfaceDecl i => .interfaceDecl { i with modifiers, annotations }

end Member

/-- The body in which nothing was read. -/
def ObjectBody.empty : ObjectBody := ⟨[], [], [], []⟩

namespace ClassDecl

/-- A class of which nothing is known but its first token. -/
def empty (token : Nat) : ClassDecl := ⟨{}, "", [], [], [], [], [], [], [], [], false, token⟩

/-- The class with the contents of a body added. -/
def absorb (classDecl : ClassDecl) (body : ObjectBody) : ClassDecl :=
  { classDecl with
    constructors := classDecl.constructors ++ body.constructors
    members := classDecl.members ++ body.members
    instanceInitializers := classDecl.instanceInitializers ++ body.instanceInitializers
    staticInitializers := classDecl.staticInitializers ++ body.staticInitializers }

end ClassDecl

/-- What can stand at the top of a file. -/
inductive TopLevel where
  | importDecl (importDecl : Import)
  | classDecl (classDecl : ClassDecl)
  | interfaceDecl (interfaceDecl : InterfaceDecl)

/-- The import, when the item is one. -/
def TopLevel.import? : TopLevel → Option Import
  | .importDecl i => some i
  | _ => none

/-- The class, when the item is one. -/
def TopLevel.class? : TopLevel → Option ClassDecl
  | .classDecl c => some c
  | _ => none

/-- The package and the items of a file. -/
structure File where
  package : Option Package
  items : List TopLevel

end Tree

/-- A parsed source file with its tokens. -/
structure SourceTree extends Tree.File where
  tokens : TokenStream

/-- The imports of a file, in order. -/
def SourceTree.imports (tree : SourceTree) : List Tree.Import :=
  tree.items.filterMap (·.import?)

/-- The classes at the top of a file, in order. -/
def SourceTree.classes (tree : SourceTree) : List Tree.ClassDecl :=
  tree.items.filterMap (·.class?)

end Javascribe

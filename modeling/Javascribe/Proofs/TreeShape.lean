/-
# The shape of trees

What holds of every construct in a tree that was read from `n` tokens, at any
depth: the lists in it match each other, parts that exclude each other do not
stand together, types are named, and every token that is kept is one of the
stream's. Filling classes keeps this.

Key definitions: `TypeRef.WellShaped`, `Tree.Chain.HasShape`,
`Tree.Instantiation.HasShape`, `Tree.Statement.WellShaped`,
`Tree.ClassDecl.WellShaped`.
Key theorems: `Tree.wellShaped_absorb`, `Tree.wellShaped_withPending`.
-/
import Javascribe.Tree.Precedence

namespace Javascribe

/-- A type has a name, and so have its arguments. -/
inductive TypeRef.WellShaped (n : Nat) : TypeRef → Prop where
  | intro {type : TypeRef} (names : type.names ≠ []) (token : type.token < n)
      (arguments : ∀ argument ∈ type.arguments, TypeRef.WellShaped n argument) :
      TypeRef.WellShaped n type

namespace Tree

/-! ### Single constructs -/

/-- There is a condition, and a block for each; one block more is the `else`. -/
structure IfElse.HasShape (ifElse : IfElse) : Prop where
  conditions : ifElse.conditions ≠ []
  blocks : ifElse.blocks.length = ifElse.conditions.length ∨
    ifElse.blocks.length = ifElse.conditions.length + 1

/-- A loop is enhanced if it has an iterable. Then it declares its variable and
has nothing else. -/
structure ForLoop.HasShape (loop : ForLoop) : Prop where
  isEnhanced : loop.isEnhanced = loop.iterable.isSome
  initialization : loop.isEnhanced = true → loop.initialization.isSome
  condition : loop.isEnhanced = true → loop.condition = none
  increment : loop.isEnhanced = true → loop.increment = none

/-- Each catch clause has types, a name and a block, and there is a clause. -/
structure TryCatch.HasShape (tryCatch : TryCatch) : Prop where
  names : tryCatch.exceptionNames.length = tryCatch.exceptionTypes.length
  blocks : tryCatch.catchBlocks.length = tryCatch.exceptionTypes.length
  types : ∀ types ∈ tryCatch.exceptionTypes, types ≠ []
  clause : tryCatch.catchBlocks ≠ [] ∨ tryCatch.finallyBlock.isSome

/-- Whether a link is an index. -/
def Property.isIndex : Property → Bool
  | .index _ => true
  | _ => false

/-- Whether a link is a first value. -/
def Property.isHead : Property → Bool
  | .head _ => true
  | _ => false

/-- Whether a link is a type. -/
def Property.isType : Property → Bool
  | .type _ => true
  | _ => false

/-- A chain starts with a value or a name; only there another value can stand,
and only at its end a type. -/
structure Chain.HasShape (chain : Chain) : Prop where
  nonempty : chain.properties ≠ []
  first : ∀ property ∈ chain.properties.head?, property.isIndex = false
  head : ∀ property ∈ chain.properties.tail, property.isHead = false
  type : ∀ property ∈ chain.properties.dropLast, property.isType = false

/-- An array has a size or a literal, and no arguments; an object may have a body. -/
structure Instantiation.HasShape (instantiation : Instantiation) : Prop where
  size : instantiation.arraySize.isSome → instantiation.arrayLiteral = none ∧
    instantiation.body = none ∧ instantiation.arguments = []
  literal : instantiation.arrayLiteral.isSome → instantiation.arraySize = none ∧
    instantiation.body = none ∧ instantiation.arguments = []

/-- A constructor has a block and no type, a method has a type. -/
def Method.HasShape (method : Method) : Prop :=
  if method.isConstructor then method.block.isSome ∧ method.type = none else method.type.isSome

/-- A declared variable has a type. -/
structure Variable.WellShaped (n : Nat) (declared : Variable) : Prop where
  type : declared.type.WellShaped n
  token : declared.token < n

/-- A parameter is a name or a declared variable. -/
def LambdaParameter.WellShaped (n : Nat) : LambdaParameter → Prop
  | .untyped r => r.token < n
  | .typed d => d.WellShaped n

/-! ### Constructs with all that is in them -/

mutual

inductive AnnotationUse.WellShaped (n : Nat) : AnnotationUse → Prop where
  | intro {noted : AnnotationUse} (arguments : ∀ s ∈ noted.arguments, Statement.WellShaped n s)
      (token : noted.token < n) : AnnotationUse.WellShaped n noted

inductive Statement.WellShaped (n : Nat) : Statement → Prop where
  | intro {statement : Statement} (left : ∀ node ∈ statement.left, Node.WellShaped n node)
      (operator : ∀ use ∈ statement.operator, use.token < n)
      (right : ∀ s ∈ statement.right, Statement.WellShaped n s)
      (cast : ∀ type ∈ statement.cast, type.WellShaped n)
      (annotations : ∀ a ∈ statement.annotations, AnnotationUse.WellShaped n a)
      (token : statement.token < n) : Statement.WellShaped n statement

inductive Block.WellShaped (n : Nat) : Block → Prop where
  | intro {block : Block} (statements : ∀ s ∈ block.statements, Statement.WellShaped n s)
      (token : block.token < n) : Block.WellShaped n block

inductive Instruction.WellShaped (n : Nat) : Instruction → Prop where
  | intro {instruction : Instruction} (value : ∀ s ∈ instruction.value, Statement.WellShaped n s)
      (token : instruction.token < n) : Instruction.WellShaped n instruction

inductive Assertion.WellShaped (n : Nat) : Assertion → Prop where
  | intro {assertion : Assertion} (condition : Statement.WellShaped n assertion.condition)
      (message : ∀ s ∈ assertion.message, Statement.WellShaped n s)
      (token : assertion.token < n) : Assertion.WellShaped n assertion

inductive Literal.WellShaped (n : Nat) : Literal → Prop where
  | intro {literal : Literal} (elements : ∀ s ∈ literal.elements, Statement.WellShaped n s)
      (token : literal.token < n) : Literal.WellShaped n literal

inductive LambdaBody.WellShaped (n : Nat) : LambdaBody → Prop where
  | block {block : Block} : Block.WellShaped n block → LambdaBody.WellShaped n (.block block)
  | statement {statement : Statement} :
      Statement.WellShaped n statement → LambdaBody.WellShaped n (.statement statement)

inductive Lambda.WellShaped (n : Nat) : Lambda → Prop where
  | intro {lambda : Lambda} (parameters : ∀ p ∈ lambda.parameters, p.WellShaped n)
      (body : LambdaBody.WellShaped n lambda.body) (token : lambda.token < n) :
      Lambda.WellShaped n lambda

inductive Call.WellShaped (n : Nat) : Call → Prop where
  | intro {call : Call} (typeArguments : ∀ type ∈ call.typeArguments, type.WellShaped n)
      (arguments : ∀ s ∈ call.arguments, Statement.WellShaped n s) (token : call.token < n) :
      Call.WellShaped n call

inductive Instantiation.WellShaped (n : Nat) : Instantiation → Prop where
  | intro {instantiation : Instantiation} (shape : instantiation.HasShape)
      (constructed : instantiation.constructed.WellShaped n)
      (arguments : ∀ s ∈ instantiation.arguments, Statement.WellShaped n s)
      (arraySize : ∀ s ∈ instantiation.arraySize, Statement.WellShaped n s)
      (arrayLiteral : ∀ l ∈ instantiation.arrayLiteral, Literal.WellShaped n l)
      (body : ∀ b ∈ instantiation.body, ObjectBody.WellShaped n b)
      (token : instantiation.token < n) : Instantiation.WellShaped n instantiation

inductive IfElse.WellShaped (n : Nat) : IfElse → Prop where
  | intro {ifElse : IfElse} (shape : ifElse.HasShape)
      (conditions : ∀ s ∈ ifElse.conditions, Statement.WellShaped n s)
      (blocks : ∀ b ∈ ifElse.blocks, Block.WellShaped n b) (token : ifElse.token < n) :
      IfElse.WellShaped n ifElse

inductive ForLoop.WellShaped (n : Nat) : ForLoop → Prop where
  | intro {loop : ForLoop} (shape : loop.HasShape)
      (initialization : ∀ s ∈ loop.initialization, Statement.WellShaped n s)
      (condition : ∀ s ∈ loop.condition, Statement.WellShaped n s)
      (increment : ∀ s ∈ loop.increment, Statement.WellShaped n s)
      (iterable : ∀ s ∈ loop.iterable, Statement.WellShaped n s)
      (block : Block.WellShaped n loop.block) (token : loop.token < n) :
      ForLoop.WellShaped n loop

inductive WhileLoop.WellShaped (n : Nat) : WhileLoop → Prop where
  | intro {loop : WhileLoop} (condition : Statement.WellShaped n loop.condition)
      (block : Block.WellShaped n loop.block) (token : loop.token < n) : WhileLoop.WellShaped n loop

inductive DoWhileLoop.WellShaped (n : Nat) : DoWhileLoop → Prop where
  | intro {loop : DoWhileLoop} (block : Block.WellShaped n loop.block)
      (condition : Statement.WellShaped n loop.condition) (token : loop.token < n) :
      DoWhileLoop.WellShaped n loop

inductive Switch.WellShaped (n : Nat) : Switch → Prop where
  | intro {switch : Switch} (shape : switch.blocks.length = switch.cases.length)
      (value : Statement.WellShaped n switch.value)
      (cases : ∀ s ∈ switch.cases, Statement.WellShaped n s)
      (blocks : ∀ b ∈ switch.blocks, Block.WellShaped n b)
      (default : ∀ b ∈ switch.default, Block.WellShaped n b) (token : switch.token < n) :
      Switch.WellShaped n switch

inductive TryCatch.WellShaped (n : Nat) : TryCatch → Prop where
  | intro {tryCatch : TryCatch} (shape : tryCatch.HasShape)
      (block : Block.WellShaped n tryCatch.block)
      (types : ∀ types ∈ tryCatch.exceptionTypes, ∀ type ∈ types, type.WellShaped n)
      (names : ∀ r ∈ tryCatch.exceptionNames, r.token < n)
      (blocks : ∀ b ∈ tryCatch.catchBlocks, Block.WellShaped n b)
      (finallyBlock : ∀ b ∈ tryCatch.finallyBlock, Block.WellShaped n b)
      (token : tryCatch.token < n) : TryCatch.WellShaped n tryCatch

inductive Property.WellShaped (n : Nat) : Property → Prop where
  | reference {reference : Reference} :
      reference.token < n → Property.WellShaped n (.reference reference)
  | call {call : Call} : Call.WellShaped n call → Property.WellShaped n (.call call)
  | type {type : TypeRef} : type.WellShaped n → Property.WellShaped n (.type type)
  | index {statement : Statement} :
      Statement.WellShaped n statement → Property.WellShaped n (.index statement)
  | head {node : Node} : Node.WellShaped n node → Property.WellShaped n (.head node)

inductive Chain.WellShaped (n : Nat) : Chain → Prop where
  | intro {chain : Chain} (shape : chain.HasShape)
      (properties : ∀ p ∈ chain.properties, Property.WellShaped n p) (token : chain.token < n) :
      Chain.WellShaped n chain

inductive Ternary.WellShaped (n : Nat) : Ternary → Prop where
  | intro {ternary : Ternary} (condition : Statement.WellShaped n ternary.condition)
      (left : Statement.WellShaped n ternary.left) (right : Statement.WellShaped n ternary.right)
      (token : ternary.token < n) : Ternary.WellShaped n ternary

inductive Node.WellShaped (n : Nat) : Node → Prop where
  | statement {s : Statement} : Statement.WellShaped n s → Node.WellShaped n (.statement s)
  | instruction {i : Instruction} : Instruction.WellShaped n i → Node.WellShaped n (.instruction i)
  | assertion {a : Assertion} : Assertion.WellShaped n a → Node.WellShaped n (.assertion a)
  | literal {l : Literal} : Literal.WellShaped n l → Node.WellShaped n (.literal l)
  | lambda {l : Lambda} : Lambda.WellShaped n l → Node.WellShaped n (.lambda l)
  | reference {r : Reference} : r.token < n → Node.WellShaped n (.reference r)
  | call {c : Call} : Call.WellShaped n c → Node.WellShaped n (.call c)
  | instantiation {i : Instantiation} :
      Instantiation.WellShaped n i → Node.WellShaped n (.instantiation i)
  | classDecl {c : ClassDecl} : ClassDecl.WellShaped n c → Node.WellShaped n (.classDecl c)
  | declaration {d : Variable} : d.WellShaped n → Node.WellShaped n (.declaration d)
  | ifElse {i : IfElse} : IfElse.WellShaped n i → Node.WellShaped n (.ifElse i)
  | forLoop {l : ForLoop} : ForLoop.WellShaped n l → Node.WellShaped n (.forLoop l)
  | whileLoop {l : WhileLoop} : WhileLoop.WellShaped n l → Node.WellShaped n (.whileLoop l)
  | doWhileLoop {l : DoWhileLoop} : DoWhileLoop.WellShaped n l → Node.WellShaped n (.doWhileLoop l)
  | switch {s : Switch} : Switch.WellShaped n s → Node.WellShaped n (.switch s)
  | tryCatch {t : TryCatch} : TryCatch.WellShaped n t → Node.WellShaped n (.tryCatch t)
  | chain {c : Chain} : Chain.WellShaped n c → Node.WellShaped n (.chain c)
  | ternary {t : Ternary} : Ternary.WellShaped n t → Node.WellShaped n (.ternary t)

inductive ClassDecl.WellShaped (n : Nat) : ClassDecl → Prop where
  | intro {classDecl : ClassDecl} (base : classDecl.extended.length ≤ 1)
      (extended : ∀ type ∈ classDecl.extended, type.WellShaped n)
      (implemented : ∀ type ∈ classDecl.implemented, type.WellShaped n)
      (areConstructors : ∀ m ∈ classDecl.constructors, m.isConstructor = true)
      (constructors : ∀ m ∈ classDecl.constructors, Method.WellShaped n m)
      (members : ∀ m ∈ classDecl.members, Member.WellShaped n m)
      (instanceInitializers : ∀ b ∈ classDecl.instanceInitializers, Block.WellShaped n b)
      (staticInitializers : ∀ b ∈ classDecl.staticInitializers, Block.WellShaped n b)
      (annotations : ∀ a ∈ classDecl.annotations, AnnotationUse.WellShaped n a)
      (token : classDecl.token < n) : ClassDecl.WellShaped n classDecl

inductive InterfaceDecl.WellShaped (n : Nat) : InterfaceDecl → Prop where
  | intro {interfaceDecl : InterfaceDecl}
      (extended : ∀ type ∈ interfaceDecl.extended, type.WellShaped n)
      (members : ∀ m ∈ interfaceDecl.members, Member.WellShaped n m)
      (annotations : ∀ a ∈ interfaceDecl.annotations, AnnotationUse.WellShaped n a)
      (token : interfaceDecl.token < n) : InterfaceDecl.WellShaped n interfaceDecl

inductive ObjectBody.WellShaped (n : Nat) : ObjectBody → Prop where
  | intro {body : ObjectBody}
      (areConstructors : ∀ m ∈ body.constructors, m.isConstructor = true)
      (constructors : ∀ m ∈ body.constructors, Method.WellShaped n m)
      (members : ∀ m ∈ body.members, Member.WellShaped n m)
      (instanceInitializers : ∀ b ∈ body.instanceInitializers, Block.WellShaped n b)
      (staticInitializers : ∀ b ∈ body.staticInitializers, Block.WellShaped n b) :
      ObjectBody.WellShaped n body

inductive Member.WellShaped (n : Nat) : Member → Prop where
  | field {f : Field} : Field.WellShaped n f → Member.WellShaped n (.field f)
  | method {m : Method} :
      m.isConstructor = false → Method.WellShaped n m → Member.WellShaped n (.method m)
  | classDecl {c : ClassDecl} : ClassDecl.WellShaped n c → Member.WellShaped n (.classDecl c)
  | interfaceDecl {i : InterfaceDecl} :
      InterfaceDecl.WellShaped n i → Member.WellShaped n (.interfaceDecl i)

inductive Field.WellShaped (n : Nat) : Field → Prop where
  | intro {field : Field} (type : field.type.WellShaped n)
      (value : ∀ s ∈ field.value, Statement.WellShaped n s)
      (annotations : ∀ a ∈ field.annotations, AnnotationUse.WellShaped n a)
      (token : field.token < n) : Field.WellShaped n field

inductive Method.WellShaped (n : Nat) : Method → Prop where
  | intro {method : Method} (shape : method.HasShape)
      (typeParameters : ∀ type ∈ method.typeParameters, type.WellShaped n)
      (type : ∀ type ∈ method.type, type.WellShaped n)
      (parameters : ∀ p ∈ method.parameters, p.WellShaped n)
      (throws : ∀ type ∈ method.throws, type.WellShaped n)
      (block : ∀ b ∈ method.block, Block.WellShaped n b)
      (annotations : ∀ a ∈ method.annotations, AnnotationUse.WellShaped n a)
      (token : method.token < n) : Method.WellShaped n method

end

/-- What stands at the top of a file. -/
def TopLevel.WellShaped (n : Nat) : TopLevel → Prop
  | .importDecl i => i.token < n
  | .classDecl c => c.WellShaped n
  | .interfaceDecl i => i.WellShaped n

/-- A file with its package and items. -/
structure File.WellShaped (n : Nat) (file : File) : Prop where
  package : ∀ p ∈ file.package, p.token < n
  items : ∀ item ∈ file.items, item.WellShaped n

/-! ### Classes -/

variable {n : Nat}

theorem wellShaped_absorb {classDecl : ClassDecl} {body : ObjectBody}
    (h : classDecl.WellShaped n) (hBody : body.WellShaped n) :
    (classDecl.absorb body).WellShaped n := by
  have ⟨base, extended, implemented, kinds, constructors, members, instances, statics, annotations,
    token⟩ := h
  have ⟨kinds', constructors', members', instances', statics'⟩ := hBody
  exact ⟨base, extended, implemented, List.forall_mem_append.mpr ⟨kinds, kinds'⟩,
    List.forall_mem_append.mpr ⟨constructors, constructors'⟩,
    List.forall_mem_append.mpr ⟨members, members'⟩,
    List.forall_mem_append.mpr ⟨instances, instances'⟩,
    List.forall_mem_append.mpr ⟨statics, statics'⟩, annotations, token⟩

theorem wellShaped_withPending {member : Member} (h : member.WellShaped n) (modifiers : Modifiers)
    {annotations : List AnnotationUse} (hAnnotations : ∀ a ∈ annotations, a.WellShaped n) :
    (member.withPending modifiers annotations).WellShaped n := by
  cases h with
  | field h =>
    have ⟨type, value, _, token⟩ := h
    exact .field ⟨type, value, hAnnotations, token⟩
  | method plain h =>
    have ⟨shape, typeParameters, type, parameters, throws, block, _, token⟩ := h
    exact .method plain ⟨shape, typeParameters, type, parameters, throws, block, hAnnotations, token⟩
  | classDecl h =>
    have ⟨base, extended, implemented, kinds, constructors, members, instances, statics, _, token⟩ := h
    exact .classDecl ⟨base, extended, implemented, kinds, constructors, members, instances, statics,
      hAnnotations, token⟩
  | interfaceDecl h =>
    have ⟨extended, members, _, token⟩ := h
    exact .interfaceDecl ⟨extended, members, hAnnotations, token⟩

end Tree
end Javascribe

/-
# Names in trees

What the output takes over from a tree by name: the names that stand in
statements, those of classes, their bases and their members, of what is caught
and of what is imported, and the text of numbers. A property that all of them
have is one of the tree (`Tree.Statement.Named`). Types also have the names that
they are declared by, interfaces included (`Tree.ClassDecl.declaredNames`).

Key definitions: `Tree.Statement.Named`, `Tree.File.Named`,
`Tree.ClassDecl.declaredNames`.
Key theorems: `Tree.named_absorb`, `Tree.declaredNames_absorb`.
-/
import Javascribe.Construct.SourceFile

namespace Javascribe

/-! ### What is named in a tree -/

namespace Tree

/-- The names of an import have a property. -/
structure Import.Named (P : String → Prop) (item : Import) : Prop where
  names : ∀ name ∈ item.names, P name
  default : ∀ name ∈ item.default, P name
  group : ∀ name ∈ item.group, P name

mutual

/-- The names on both sides of a statement have a property. Casts and
annotations are not written. -/
inductive Statement.Named (P : String → Prop) : Statement → Prop
  | mk {s : Statement} (left : ∀ node ∈ s.left, Node.Named P node)
      (right : ∀ other ∈ s.right, Statement.Named P other) : Statement.Named P s

/-- The names in a block have a property. -/
inductive Block.Named (P : String → Prop) : Block → Prop
  | mk {b : Block} (statements : ∀ s ∈ b.statements, Statement.Named P s) : Block.Named P b

/-- The names in a node have a property, and so do numbers and keywords. The
text of a string is no name. -/
inductive Node.Named (P : String → Prop) : Node → Prop
  | statement {s} (value : Statement.Named P s) : Node.Named P (.statement s)
  | instruction {i} (value : ∀ s ∈ i.value, Statement.Named P s) : Node.Named P (.instruction i)
  | assertion {a} (condition : Statement.Named P a.condition)
      (message : ∀ s ∈ a.message, Statement.Named P s) : Node.Named P (.assertion a)
  | literal {l} (value : l.kind ≠ .string → l.kind ≠ .array → P l.value)
      (elements : ∀ s ∈ l.elements, Statement.Named P s) : Node.Named P (.literal l)
  | lambda {l} (parameters : ∀ p ∈ l.parameters, P p.name)
      (block : ∀ b, l.body = .block b → Block.Named P b)
      (value : ∀ s, l.body = .statement s → Statement.Named P s) : Node.Named P (.lambda l)
  | reference {r} (name : P r.name) : Node.Named P (.reference r)
  | call {c} (name : ∀ name ∈ c.name, P name)
      (arguments : ∀ s ∈ c.arguments, Statement.Named P s) : Node.Named P (.call c)
  | instantiation {i} (constructed : ∀ name ∈ i.constructed.names, P name)
      (arguments : ∀ s ∈ i.arguments, Statement.Named P s)
      (arraySize : ∀ s ∈ i.arraySize, Statement.Named P s)
      (arrayLiteral : ∀ l ∈ i.arrayLiteral, Node.Named P (.literal l))
      (body : ∀ b ∈ i.body, ObjectBody.Named P b) : Node.Named P (.instantiation i)
  | classDecl {c} (name : P c.name) (extended : ∀ type ∈ c.extended, ∀ name ∈ type.names, P name)
      (body : ObjectBody.Named P
        ⟨c.constructors, c.members, c.instanceInitializers, c.staticInitializers⟩) :
      Node.Named P (.classDecl c)
  | declaration {d} (name : P d.name) : Node.Named P (.declaration d)
  | ifElse {i} (conditions : ∀ s ∈ i.conditions, Statement.Named P s)
      (blocks : ∀ b ∈ i.blocks, Block.Named P b) : Node.Named P (.ifElse i)
  | forLoop {l} (initialization : ∀ s ∈ l.initialization, Statement.Named P s)
      (condition : ∀ s ∈ l.condition, Statement.Named P s)
      (increment : ∀ s ∈ l.increment, Statement.Named P s)
      (iterable : ∀ s ∈ l.iterable, Statement.Named P s) (block : Block.Named P l.block) :
      Node.Named P (.forLoop l)
  | whileLoop {l} (condition : Statement.Named P l.condition) (block : Block.Named P l.block) :
      Node.Named P (.whileLoop l)
  | doWhileLoop {l} (block : Block.Named P l.block) (condition : Statement.Named P l.condition) :
      Node.Named P (.doWhileLoop l)
  | switch {s} (value : Statement.Named P s.value) (cases : ∀ c ∈ s.cases, Statement.Named P c)
      (blocks : ∀ b ∈ s.blocks, Block.Named P b) (default : ∀ b ∈ s.default, Block.Named P b) :
      Node.Named P (.switch s)
  | tryCatch {t} (block : Block.Named P t.block)
      (types : ∀ types ∈ t.exceptionTypes, ∀ type ∈ types, ∀ name ∈ type.names, P name)
      (names : ∀ r ∈ t.exceptionNames, P r.name) (catchBlocks : ∀ b ∈ t.catchBlocks, Block.Named P b)
      (finallyBlock : ∀ b ∈ t.finallyBlock, Block.Named P b) : Node.Named P (.tryCatch t)
  | chain {c} (properties : ∀ p ∈ c.properties, Property.Named P p) : Node.Named P (.chain c)
  | ternary {t} (condition : Statement.Named P t.condition) (left : Statement.Named P t.left)
      (right : Statement.Named P t.right) : Node.Named P (.ternary t)

/-- The names in a link have a property. -/
inductive Property.Named (P : String → Prop) : Property → Prop
  | reference {r} (name : P r.name) : Property.Named P (.reference r)
  | call {c} (call : Node.Named P (.call c)) : Property.Named P (.call c)
  | type {t} (names : ∀ name ∈ t.names, P name) : Property.Named P (.type t)
  | index {s} (index : Statement.Named P s) : Property.Named P (.index s)
  | head {n} (node : Node.Named P n) : Property.Named P (.head n)

/-- The names in a method or constructor have a property. -/
inductive Method.Named (P : String → Prop) : Method → Prop
  | mk {m : Method} (name : P m.name) (parameters : ∀ p ∈ m.parameters, P p.name)
      (block : ∀ b ∈ m.block, Block.Named P b) : Method.Named P m

/-- The names in a member have a property. Nothing is written of an interface. -/
inductive Member.Named (P : String → Prop) : Member → Prop
  | field {f} (name : P f.name) (value : ∀ s ∈ f.value, Statement.Named P s) : Member.Named P (.field f)
  | method {m} (method : Method.Named P m) : Member.Named P (.method m)
  | classDecl {c} (classDecl : Node.Named P (.classDecl c)) : Member.Named P (.classDecl c)
  | interfaceDecl {i} : Member.Named P (.interfaceDecl i)

/-- The names in a body have a property. -/
inductive ObjectBody.Named (P : String → Prop) : ObjectBody → Prop
  | mk {b : ObjectBody} (constructors : ∀ m ∈ b.constructors, Method.Named P m)
      (members : ∀ m ∈ b.members, Member.Named P m)
      (instanceInitializers : ∀ block ∈ b.instanceInitializers, Block.Named P block)
      (staticInitializers : ∀ block ∈ b.staticInitializers, Block.Named P block) : ObjectBody.Named P b

end

/-- The names in a file have a property. -/
structure File.Named (P : String → Prop) (file : File) : Prop where
  imports : ∀ item, .importDecl item ∈ file.items → Import.Named P item
  classes : ∀ c, .classDecl c ∈ file.items → Node.Named P (.classDecl c)

/-! ### Putting trees together -/

theorem forall_mem_none {α : Type} {p : α → Prop} : ∀ y ∈ (none : Option α), p y :=
  fun y mem => absurd mem (Option.not_mem_none y)

theorem forall_mem_some {α : Type} {p : α → Prop} {x : α} (h : p x) : ∀ y ∈ some x, p y :=
  fun _ same => Option.some.inj same ▸ h

theorem forall_mem_push {α : Type} {p : α → Prop} {xs : List α} {x : α} (h : ∀ y ∈ xs, p y) (hx : p x) :
    ∀ y ∈ xs ++ [x], p y :=
  List.forall_mem_append.mpr ⟨h, List.forall_mem_singleton.mpr hx⟩

variable {P : String → Prop}

theorem named_headLink {node : Node} (h : node.Named P) : (Construct.headLink node).Named P := by
  cases h with
  | reference name => exact .reference name
  | call name arguments => exact .call (.call name arguments)
  | _ => exact .head (by constructor <;> assumption)

theorem named_absorb {c : ClassDecl} (h : (Node.classDecl c).Named P) {body : ObjectBody}
    (hBody : body.Named P) : (Node.classDecl (c.absorb body)).Named P := by
  cases h with
  | classDecl name extended own =>
    obtain ⟨constructors, members, instances, statics⟩ := own
    obtain ⟨constructors', members', instances', statics'⟩ := hBody
    exact .classDecl name extended ⟨List.forall_mem_append.mpr ⟨constructors, constructors'⟩,
      List.forall_mem_append.mpr ⟨members, members'⟩, List.forall_mem_append.mpr ⟨instances, instances'⟩,
      List.forall_mem_append.mpr ⟨statics, statics'⟩⟩

theorem named_withPending {m : Member} (h : m.Named P) (modifiers : Modifiers)
    (annotations : List AnnotationUse) : (m.withPending modifiers annotations).Named P := by
  cases h with
  | field name value => exact .field name value
  | method method =>
    obtain ⟨name, parameters, block⟩ := method
    exact .method ⟨name, parameters, block⟩
  | classDecl h =>
    cases h with
    | classDecl name extended body => exact .classDecl (.classDecl name extended body)
  | interfaceDecl => exact .interfaceDecl

/-! ### What types are declared by -/

mutual

/-- The names of a class and of the types that are its members, at any depth. -/
def ClassDecl.declaredNames : ClassDecl → List String
  | ⟨_, name, _, _, _, _, members, _, _, _, _, _⟩ => name :: membersNames members

/-- The names of an interface and of the types that are its members, at any depth. -/
def InterfaceDecl.declaredNames : InterfaceDecl → List String
  | ⟨_, name, _, _, members, _, _⟩ => name :: membersNames members

/-- The names of the types among members, at any depth. -/
def membersNames : List Member → List String
  | [] => []
  | m :: ms => m.declaredNames ++ membersNames ms

/-- The names of a member that is a type, and of the types in it. -/
def Member.declaredNames : Member → List String
  | .field _ => []
  | .method _ => []
  | .classDecl c => c.declaredNames
  | .interfaceDecl i => i.declaredNames

end

/-- The names of a type at the top of a file, and of the types in it. -/
def TopLevel.declaredNames : TopLevel → List String
  | .importDecl _ => []
  | .classDecl c => c.declaredNames
  | .interfaceDecl i => i.declaredNames

theorem membersNames_append (ms ns : List Member) :
    membersNames (ms ++ ns) = membersNames ms ++ membersNames ns := by
  induction ms with
  | nil => rfl
  | cons m ms ih => rw [List.cons_append, membersNames, ih, membersNames, List.append_assoc]

theorem forall_mem_membersNames {ms : List Member}
    (h : ∀ m ∈ ms, ∀ name ∈ m.declaredNames, P name) : ∀ name ∈ membersNames ms, P name := by
  induction ms with
  | nil => exact List.forall_mem_nil _
  | cons m ms ih =>
    rw [List.forall_mem_cons] at h
    exact List.forall_mem_append.mpr ⟨h.1, ih h.2⟩

theorem membersNames_singleton (m : Member) : membersNames [m] = m.declaredNames := by
  rw [membersNames, membersNames, List.append_nil]

theorem declaredNames_withPending (modifiers : Modifiers) (annotations : List AnnotationUse)
    (m : Member) : (m.withPending modifiers annotations).declaredNames = m.declaredNames := by
  cases m with
  | field | method => rfl
  | classDecl c => obtain ⟨⟩ := c; simp [Member.withPending, Member.declaredNames, ClassDecl.declaredNames]
  | interfaceDecl i =>
    obtain ⟨⟩ := i
    simp [Member.withPending, Member.declaredNames, InterfaceDecl.declaredNames]

theorem declaredNames_absorb (c : ClassDecl) (body : ObjectBody) :
    (c.absorb body).declaredNames = c.declaredNames ++ membersNames body.members := by
  obtain ⟨⟩ := c
  simp [ClassDecl.absorb, ClassDecl.declaredNames, membersNames_append]

end Tree
end Javascribe

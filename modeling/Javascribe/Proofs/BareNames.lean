/-
# Bare names

Every bare name that is checked in a file, with its token and the objects
among whose members it stands (`Tree.File.uses`), and the member that it means
there (`Use.Finds`): that of the innermost of these objects that answers for
the name. The member is declared by that object or by one of its supertypes
(`Use.Finds.exists_through`), so it belongs to the innermost object only where
that object itself answers.

Key definitions: `Place`, `Use`, `Tree.File.uses`, `Use.Finds`,
`Use.answeredBy`.
Key theorem: `Use.Finds.exists_through`.
-/
import Javascribe.Checking.SourceFile
import Javascribe.Proofs.DictionaryWellFormed

namespace Javascribe

/-! ### Places -/

/-- Where a construct stands: what its names mean, apart from local ones. -/
structure Place where
  /-- The objects being checked, the innermost first. -/
  objects : List Nat := []
  /-- The names of the enclosing types, the outermost first. -/
  enclosing : List String := []
  /-- The type parameters that can be used. -/
  generics : List String := []

namespace Place

/-- With more type parameters. -/
def withGenerics (place : Place) (names : List String) : Place :=
  { place with generics := place.generics ++ names }

/-- Among the members of an object, if it is known. -/
def visitingOption (place : Place) (id : Option Nat) : Place :=
  { place with objects := id.toList ++ place.objects }

/-- Inside the declaration of an object. -/
def within (place : Place) (id : Nat) (name : String) (typeParameters : List String) : Place :=
  ⟨id :: place.objects, place.enclosing ++ [name], place.generics ++ typeParameters⟩

end Place

/-- The place being checked. -/
def Context.place (context : Context) : Place :=
  ⟨context.objects, context.enclosing, context.generics⟩

/-- What a written type means at a place. -/
def Environment.typeAt (env : Environment) (place : Place) (type : TypeRef) : Constraint :=
  env.dictionary.resolve (env.space.constraint place.enclosing place.generics type)

/-- The object declared under a name at a place. -/
def Environment.objectAt? (env : Environment) (place : Place) (name : String) : Option Nat :=
  (env.dictionary.symbol? (env.space.identifier place.enclosing name)).bind
    (·.constraint.definition.object?)

/-! ### Uses of bare names -/

/-- How a bare name is used: read or assigned, called, or as a case of a switch. -/
inductive UseKind where
  | value
  | call
  | case
  deriving DecidableEq, Repr

/-- A bare name at a token. -/
structure Use where
  kind : UseKind
  name : String
  token : Nat
  /-- The objects among whose members it stands, the innermost first. -/
  objects : List Nat
  deriving DecidableEq, Repr

namespace Tree

/-- A bare name that is read or assigned. -/
def Reference.use (place : Place) (reference : Reference) : Use :=
  ⟨.value, reference.name, reference.token, place.objects⟩

/-- The bare name of a call, if it has one. -/
def callUses (place : Place) (name : Option String) (token : Nat) : List Use :=
  name.toList.map (⟨.call, ·, token, place.objects⟩)

mutual

/-- The bare names that are checked in a statement. -/
def Statement.uses (env : Environment) (place : Place) : Statement → List Use
  | ⟨left, none, _, _, _, _, _⟩ => leftUses env place left
  | ⟨left, some _, right, _, _, _, _⟩ => leftUses env place left ++ optionUses env place right

/-- The bare names of a left side. -/
def leftUses (env : Environment) (place : Place) : Option Node → List Use
  | none => []
  | some n => n.uses env place

/-- The bare names of a statement that may be absent. -/
def optionUses (env : Environment) (place : Place) : Option Statement → List Use
  | none => []
  | some s => s.uses env place

/-- The bare names of statements. -/
def linesUses (env : Environment) (place : Place) : List Statement → List Use
  | [] => []
  | s :: ss => s.uses env place ++ linesUses env place ss

/-- The bare names of the cases of a switch. -/
def casesUses (env : Environment) (place : Place) : List Statement → List Use
  | [] => []
  | s :: ss =>
    (match s.caseName? with
      | some r => [⟨.case, r.name, r.token, place.objects⟩]
      | none => s.uses env place) ++ casesUses env place ss

/-- The bare names of a block. -/
def Block.uses (env : Environment) (place : Place) : Block → List Use
  | ⟨ss, _⟩ => linesUses env place ss

/-- The bare names of blocks. -/
def blocksUses (env : Environment) (place : Place) : List Block → List Use
  | [] => []
  | b :: bs => b.uses env place ++ blocksUses env place bs

/-- The bare names of a block that may be absent. -/
def optionBlockUses (env : Environment) (place : Place) : Option Block → List Use
  | none => []
  | some b => b.uses env place

/-- The bare names of a node. A class declared in a block is not checked. -/
def Node.uses (env : Environment) (place : Place) : Node → List Use
  | .statement s => s.uses env place
  | .instruction ⟨_, value, _⟩ => optionUses env place value
  | .assertion ⟨test, message, _⟩ => test.uses env place ++ optionUses env place message
  | .literal l => l.uses env place
  | .lambda ⟨_, body, _⟩ => body.uses env place
  | .reference r => [r.use place]
  | .call ⟨name, _, arguments, token⟩ => linesUses env place arguments ++ callUses place name token
  | .instantiation ⟨type, arguments, size, literal, body, _⟩ =>
    linesUses env place arguments ++ optionUses env place size ++ literalUses env place literal ++
      objectUses env (place.visitingOption (env.typeAt place type).definition.object?) body
  | .ifElse ⟨tests, branches, _⟩ => linesUses env place tests ++ blocksUses env place branches
  | .forLoop ⟨initialization, test, increment, iterable, _, body, _⟩ =>
    optionUses env place initialization ++ optionUses env place test ++
      optionUses env place increment ++ optionUses env place iterable ++ body.uses env place
  | .whileLoop ⟨test, body, _⟩ => test.uses env place ++ body.uses env place
  | .doWhileLoop ⟨body, test, _⟩ => body.uses env place ++ test.uses env place
  | .switch ⟨value, cases, bodies, default, _⟩ =>
    value.uses env place ++ casesUses env place cases ++ blocksUses env place bodies ++
      optionBlockUses env place default
  | .tryCatch ⟨body, _, _, clauses, finallyBlock, _⟩ =>
    body.uses env place ++ blocksUses env place clauses ++ optionBlockUses env place finallyBlock
  | .chain ⟨properties, _⟩ => chainUses env place properties
  | .ternary ⟨test, left, right, _⟩ =>
    test.uses env place ++ left.uses env place ++ right.uses env place
  | .classDecl _ | .declaration _ => []

/-- The bare names of a literal. -/
def Literal.uses (env : Environment) (place : Place) : Literal → List Use
  | ⟨_, _, items, _⟩ => linesUses env place items

/-- The bare names of a literal that may be absent. -/
def literalUses (env : Environment) (place : Place) : Option Literal → List Use
  | none => []
  | some l => l.uses env place

/-- The bare names of the body of a lambda. -/
def LambdaBody.uses (env : Environment) (place : Place) : LambdaBody → List Use
  | .block b => b.uses env place
  | .statement s => s.uses env place

/-- The bare names of a chain. Only the name at its start is bare. -/
def chainUses (env : Environment) (place : Place) : List Property → List Use
  | [] => []
  | .reference r :: ps => r.use place :: linksUses env place ps
  | .call ⟨name, _, arguments, token⟩ :: ps =>
    linesUses env place arguments ++ callUses place name token ++ linksUses env place ps
  | .head n :: ps => n.uses env place ++ linksUses env place ps
  | .type _ :: ps => linksUses env place ps
  | .index _ :: _ => []

/-- The bare names inside of the links of a chain. -/
def linksUses (env : Environment) (place : Place) : List Property → List Use
  | [] => []
  | p :: ps => p.uses env place ++ linksUses env place ps

/-- The bare names inside of a link. -/
def Property.uses (env : Environment) (place : Place) : Property → List Use
  | .reference _ | .type _ => []
  | .call ⟨_, _, arguments, _⟩ => linesUses env place arguments
  | .index s => s.uses env place
  | .head n => n.uses env place

/-- The bare names of an anonymous object. -/
def objectUses (env : Environment) (place : Place) : Option ObjectBody → List Use
  | none => []
  | some ⟨_, ms, initializers, _⟩ => membersUses env place ms ++ blocksUses env place initializers

/-- The bare names of members. -/
def membersUses (env : Environment) (place : Place) : List Member → List Use
  | [] => []
  | m :: ms => m.uses env place ++ membersUses env place ms

/-- The bare names of a member. -/
def Member.uses (env : Environment) (place : Place) : Member → List Use
  | .field f => f.uses env place
  | .method m => m.uses env place
  | .classDecl c => c.uses env place
  | .interfaceDecl i => i.uses env place

/-- The bare names of methods. -/
def methodsUses (env : Environment) (place : Place) : List Method → List Use
  | [] => []
  | m :: ms => m.uses env place ++ methodsUses env place ms

/-- The bare names of a method. -/
def Method.uses (env : Environment) (place : Place) : Method → List Use
  | ⟨_, typeParameters, _, _, _, _, body, _, _, _⟩ =>
    optionBlockUses env (place.withGenerics (typeParameters.map TypeRef.name)) body

/-- The bare names of a field. -/
def Field.uses (env : Environment) (place : Place) : Field → List Use
  | ⟨_, _, _, value, _, _⟩ => optionUses env place value

/-- The bare names of a class. One that is not in the dictionary is not checked. -/
def ClassDecl.uses (env : Environment) (place : Place) : ClassDecl → List Use
  | ⟨_, name, typeParameters, _, _, constructors, ms, instanceInitializers, staticInitializers, _, _,
      _⟩ =>
    match env.objectAt? place name with
    | none => []
    | some id =>
      methodsUses env (place.within id name typeParameters) constructors ++
        membersUses env (place.within id name typeParameters) ms ++
        blocksUses env (place.within id name typeParameters) instanceInitializers ++
        blocksUses env (place.within id name typeParameters) staticInitializers

/-- The bare names of an interface. One that is not in the dictionary is not checked. -/
def InterfaceDecl.uses (env : Environment) (place : Place) : InterfaceDecl → List Use
  | ⟨_, name, typeParameters, _, ms, _, _⟩ =>
    match env.objectAt? place name with
    | none => []
    | some id => membersUses env (place.within id name typeParameters) ms

end

/-- The bare names of what stands at the top of a file. -/
def TopLevel.uses (env : Environment) : TopLevel → List Use
  | .importDecl _ => []
  | .classDecl c => c.uses env {}
  | .interfaceDecl i => i.uses env {}

/-- The bare names of a file. -/
def File.uses (env : Environment) (file : File) : List Use := file.items.flatMap (·.uses env)

end Tree

/-- The bare names that a check of a file against a dictionary looks up. -/
def SourceTree.uses (file : String) (tree : SourceTree) (dictionary : Dictionary) : List Use :=
  tree.toFile.uses (.ofTree file tree dictionary)

/-! ### What a bare name means -/

namespace Dictionary

/-- The method of the first of `objects` that has one of that name, to call with arguments. -/
def enclosingMethod (d : Dictionary) (name : String) (arguments : List Constraint) :
    List Nat → MethodLookup
  | [] => .missing
  | id :: objects =>
    match d.method id name arguments with
    | .missing => d.enclosingMethod name arguments objects
    | lookup => lookup

/-- What a bare name that means a member is qualified with. -/
def qualifier (d : Dictionary) (member : ObjectMember) : String :=
  if member.isStatic then (d.object member.parent).name else "this"

end Dictionary

namespace Use

/-- The member that a bare name means. In a case it is a static member of
whatever object is switched on. -/
def Finds (d : Dictionary) (use : Use) (member : ObjectMember) : Prop :=
  match use.kind with
  | .value => use.objects.findSome? (d.member? · use.name) = some member
  | .call => ∃ arguments method,
    d.enclosingMethod use.name arguments use.objects = .found method ∧ method.member = member
  | .case => ∃ id, d.member? id use.name = some member ∧ member.isStatic = true

/-- Whether an object declares the name: as a member, or for a call as
several methods, which are stored under other names. -/
def declaredBy (d : Dictionary) (use : Use) (id : Nat) : Bool :=
  ((d.object id).ownMember? use.name).isSome ||
    use.kind == .call && ((d.object id).overloads? use.name).isSome

/-- Whether an object answers for the name: it or a supertype declares it. -/
def answeredBy (d : Dictionary) (use : Use) (id : Nat) : Bool :=
  (d.ancestry id).any (use.declaredBy d)

end Use

namespace Dictionary

variable {d : Dictionary} {id : Nat} {name : String} {member : ObjectMember}

/-- A member is found at an ancestor that knows it as its own. -/
theorem WellFormed.of_member? (h : d.WellFormed) (found : d.member? id name = some member) :
    member.parent ∈ d.ancestry id ∧
      (d.object member.parent).ownMember? name = some member := by
  obtain ⟨ancestor, mem, own⟩ := List.exists_of_findSome?_eq_some found
  have same : member.parent = ancestor :=
    ((h.coversObject_object ancestor).members _ (Table.mem_of_find? own)).2.parent
  rw [same]
  exact ⟨mem, own⟩

/-- The method found for a call is a member. -/
theorem exists_member?_of_method {arguments : List Constraint} {method : MethodMatch}
    (found : d.method id name arguments = .found method) :
    ∃ stored, d.member? id stored = some method.member := by
  have called {stored : String} {member : ObjectMember}
      (h : d.callMember? stored member arguments = some method) : method.member = member := by
    unfold callMember? at h
    grind
  unfold Dictionary.method at found
  split at found
  · split at found
    · next first =>
      obtain rfl := MethodLookup.found.inj found
      obtain ⟨stored, _, h⟩ := List.exists_of_findSome?_eq_some first
      obtain ⟨member, own, call⟩ := Option.bind_eq_some_iff.mp h
      exact ⟨stored, called call ▸ own⟩
    · cases found
  · split at found
    · cases found
    · next own =>
      split at found
      · next call =>
        obtain rfl := MethodLookup.found.inj found
        exact ⟨name, called call ▸ own⟩
      · split at found <;> cases found

theorem method_eq_missing_iff {arguments : List Constraint} :
    d.method id name arguments = .missing ↔
      d.overloads? id name = none ∧ d.member? id name = none := by
  unfold Dictionary.method
  grind

end Dictionary

namespace Use

open Dictionary

variable {d : Dictionary} {use : Use} {member : ObjectMember}

/-- A value is answered for where there is a member of the name. -/
theorem answeredBy_value (h : use.kind = .value) (id : Nat) :
    use.answeredBy d id = (d.member? id use.name).isSome := by
  rw [member?, List.isSome_findSome?, answeredBy, Bool.eq_iff_iff]
  simp [declaredBy, h]

/-- A call is answered for where there is a member of the name, or several methods. -/
theorem answeredBy_call (h : use.kind = .call) (id : Nat) :
    use.answeredBy d id = ((d.member? id use.name).isSome || (d.overloads? id use.name).isSome) := by
  rw [member?, overloads?, List.isSome_findSome?, List.isSome_findSome?, answeredBy,
    Bool.eq_iff_iff]
  simp only [declaredBy, h, List.any_eq_true, Bool.or_eq_true]
  grind

/-- The first of the objects that has a method of the name gives it. -/
theorem exists_through_of_enclosingMethod (h : use.kind = .call) {arguments : List Constraint}
    {method : MethodMatch} {objects : List Nat}
    (found : d.enclosingMethod use.name arguments objects = .found method) :
    ∃ through, objects.find? (use.answeredBy d) = some through ∧
      d.method through use.name arguments = .found method := by
  have answered (id : Nat) : use.answeredBy d id = true ↔
      d.method id use.name arguments ≠ .missing := by
    rw [Ne, method_eq_missing_iff, answeredBy_call h, ← Option.isNone_iff_eq_none,
      ← Option.isNone_iff_eq_none]
    cases d.member? id use.name <;> cases d.overloads? id use.name <;> simp
  induction objects with
  | nil => cases found
  | cons id objects ih =>
    unfold enclosingMethod at found
    split at found
    · next missing =>
      rw [List.find?_cons_of_neg (by rw [answered]; exact fun has => has missing)]
      exact ih found
    · next has =>
      exact ⟨id, List.find?_cons_of_pos ((answered id).mpr has), found⟩

/-- The first of the objects that has a member of the name gives it. -/
theorem exists_through_of_findSome? (h : use.kind = .value) {objects : List Nat}
    (found : objects.findSome? (d.member? · use.name) = some member) :
    ∃ through, objects.find? (use.answeredBy d) = some through ∧
      d.member? through use.name = some member := by
  induction objects with
  | nil => cases found
  | cons id objects ih =>
    rw [List.findSome?_cons] at found
    split at found
    · next has =>
      obtain rfl := Option.some.inj found
      exact ⟨id, List.find?_cons_of_pos (by rw [answeredBy_value h, has]; rfl), has⟩
    · next missing =>
      rw [List.find?_cons_of_neg (by rw [answeredBy_value h, missing]; exact Bool.false_ne_true)]
      exact ih found

/-- A bare name means a member of the innermost object that answers for it,
declared there or by a supertype. -/
theorem Finds.exists_through (wellFormed : d.WellFormed) (h : use.Finds d member)
    (isInstance : member.isStatic = false) :
    ∃ through, use.objects.find? (use.answeredBy d) = some through ∧
      member.parent ∈ d.ancestry through := by
  unfold Finds at h
  split at h
  · next isValue =>
    obtain ⟨through, first, found⟩ := exists_through_of_findSome? isValue h
    exact ⟨through, first, (wellFormed.of_member? found).1⟩
  · next isCall =>
    obtain ⟨arguments, method, found, rfl⟩ := h
    obtain ⟨through, first, found⟩ := exists_through_of_enclosingMethod isCall found
    obtain ⟨stored, own⟩ := exists_member?_of_method found
    exact ⟨through, first, (wellFormed.of_member? own).1⟩
  · obtain ⟨_, _, isStatic⟩ := h
    rw [isInstance] at isStatic
    cases isStatic

/-- What is read or assigned is declared under its name. -/
theorem Finds.declaredBy_of_value (wellFormed : d.WellFormed) (h : use.Finds d member)
    (isValue : use.kind = .value) : use.declaredBy d member.parent = true := by
  unfold Finds at h
  rw [isValue] at h
  obtain ⟨through, _, found⟩ := exists_through_of_findSome? isValue h
  rw [declaredBy, (wellFormed.of_member? found).2]
  rfl

end Use
end Javascribe

/-
# What a dictionary holds of the declarations

The types of a dictionary are the native ones and then those that are
declared, in the order of the source: a type comes before the types in it
(`typeBodies`). Each has the members that its body declares, added one after
the other, with the types they are declared with (`Dictionary.Holds`).

Collecting a body changes one object type, the one whose members it adds;
all that is there besides stays (`Dictionary.Follows`).

Key definitions: `TypeBody`, `typeBodies`, `Dictionary.Declares`,
`Dictionary.Holds`, `Dictionary.HoldsOnly`, `Dictionary.Follows`.
Key theorems: `Collector.addsTypes_collectClass`, `Dictionary.holds_ofFiles`,
`Dictionary.ofFiles_sound`.
-/
import Javascribe.Proofs.Overloads

namespace Javascribe

/-! ### Bodies -/

/-- A class or interface: its name, its members, and what names mean in it. -/
structure TypeBody where
  scope : CollectScope
  name : String
  members : List Tree.Member

mutual

/-- A class and the types in it. -/
def classTypes (scope : CollectScope) : Tree.ClassDecl → List TypeBody
  | ⟨_, name, typeParameters, _, _, _, members, _, _, _, _, _⟩ =>
    ⟨scope.inside name typeParameters, name, members⟩ ::
      membersTypes (scope.inside name typeParameters) members

/-- An interface and the types in it. -/
def interfaceTypes (scope : CollectScope) : Tree.InterfaceDecl → List TypeBody
  | ⟨_, name, typeParameters, _, members, _, _⟩ =>
    ⟨scope.inside name typeParameters, name, members⟩ ::
      membersTypes (scope.inside name typeParameters) members

/-- The types among members, and those in them. -/
def membersTypes (scope : CollectScope) : List Tree.Member → List TypeBody
  | [] => []
  | member :: members => memberTypes scope member ++ membersTypes scope members

/-- The types that a member declares. -/
def memberTypes (scope : CollectScope) : Tree.Member → List TypeBody
  | .field _ | .method _ => []
  | .classDecl c => classTypes scope c
  | .interfaceDecl i => interfaceTypes scope i

end

theorem membersTypes_singleton (scope : CollectScope) (member : Tree.Member) :
    membersTypes scope [member] = memberTypes scope member := by
  rw [membersTypes, membersTypes, List.append_nil]

/-- The types that an item of a file declares. -/
def itemTypes (scope : CollectScope) : Tree.TopLevel → List TypeBody
  | .importDecl _ => []
  | .classDecl c => classTypes scope c
  | .interfaceDecl i => interfaceTypes scope i

/-- The types that files declare, in order. -/
def typeBodies (files : List (FileNamespace × SourceTree)) : List TypeBody :=
  files.flatMap fun file => file.2.items.flatMap (itemTypes ⟨file.1, [], []⟩)

/-! ### Declared members -/

namespace Dictionary

/-- What a declaration gives its member as a type. -/
def Means (d : Dictionary) (scope : CollectScope) : Tree.Member → Constraint → Prop
  | .field f, type => type = scope.constraint f.type
  | .method m, type =>
    ∃ id, type = .function id ∧ d.functions[id]? = some (scope.methodType m)
  | .classDecl c, type =>
    ∃ id, type = .objectType id ∧ d.objects[id]?.map (·.name) = some c.name
  | .interfaceDecl i, type =>
    ∃ id, type = .objectType id ∧ d.objects[id]?.map (·.name) = some i.name

/-- The member of object `id` that a declaration stands for. -/
structure Declares (d : Dictionary) (scope : CollectScope) (id : Nat)
    (declaration : Tree.Member) (member : ObjectMember) : Prop where
  name_eq : member.name = declaration.name
  parent_eq : member.parent = id
  means : d.Means scope declaration member.constraint

/-- The types among declarations are numbered from `first` on, with those in
them, and the members of the declarations are these types. -/
def NumbersTypes (scope : CollectScope) (first : Nat) (declarations : List Tree.Member)
    (members : List ObjectMember) : Prop :=
  ∀ (i : Nat) (declaration : Tree.Member) (member : ObjectMember), declarations[i]? = some declaration →
    members[i]? = some member → memberTypes scope declaration ≠ [] →
    member.constraint = .objectType (first + (membersTypes scope (declarations.take i)).length)

/-- Object `id` has the members of a body and no others, added in order. The
types among them have the next numbers. -/
def Holds (d : Dictionary) (id : Nat) (body : TypeBody) : Prop :=
  ∃ base members, d.objects[id]? = some (ObjectType.declareAll base members) ∧
    base.name = body.name ∧ base.members = .empty ∧ base.overloads = .empty ∧
    List.Forall₂ (d.Declares body.scope id) body.members members ∧
    NumbersTypes body.scope (id + 1) body.members members

/-- Every member that object `id` stores has the type that one of the
declarations of a body gives it. What is no method is under the declared name. -/
def HoldsOnly (d : Dictionary) (id : Nat) (body : TypeBody) : Prop :=
  ∃ object, d.objects[id]? = some object ∧ ∀ entry ∈ object.members.entries,
    ∃ declaration ∈ body.members, d.Means body.scope declaration entry.2.constraint ∧
      (entry.2.isMethod = false → entry.1 = declaration.name)

/-- From one dictionary to the next only object `id` has changed, and not its
name, and more has come in. -/
structure Follows (id : Nat) (d d' : Dictionary) : Prop where
  functions (k : Nat) (function : FunctionType) :
    d.functions[k]? = some function → d'.functions[k]? = some function
  objects (k : Nat) (object : ObjectType) :
    k ≠ id → d.objects[k]? = some object → d'.objects[k]? = some object
  name (object : ObjectType) : d.objects[id]? = some object →
    ∃ object', d'.objects[id]? = some object' ∧ object'.name = object.name

namespace Follows

variable {id : Nat} {d d' d'' : Dictionary}

theorem refl (id : Nat) (d : Dictionary) : Follows id d d :=
  ⟨fun _ _ h => h, fun _ _ _ h => h, fun object h => ⟨object, h, rfl⟩⟩

theorem trans (h : Follows id d d') (h' : Follows id d' d'') : Follows id d d'' where
  functions k function found := h'.functions k function (h.functions k function found)
  objects k object other found := h'.objects k object other (h.objects k object other found)
  name object found := by
    obtain ⟨object', found', same⟩ := h.name object found
    obtain ⟨object'', found'', same'⟩ := h'.name object' found'
    exact ⟨object'', found'', same'.trans same⟩

/-- If the object that changes is new, nothing old has changed. -/
theorem of_new (h : Follows d.objects.size d d') (id : Nat) : Follows id d d' := by
  have objects (k : Nat) (object : ObjectType) (found : d.objects[k]? = some object) :
      d'.objects[k]? = some object := by
    obtain ⟨lt, _⟩ := Array.getElem?_eq_some_iff.mp found
    exact h.objects k object (Nat.ne_of_lt lt) found
  exact ⟨h.functions, fun k object _ => objects k object,
    fun object found => ⟨object, objects id object found, rfl⟩⟩

theorem map_name (h : Follows id d d') {k : Nat} {name : String}
    (found : d.objects[k]?.map (·.name) = some name) : d'.objects[k]?.map (·.name) = some name := by
  obtain ⟨object, there, rfl⟩ := Option.map_eq_some_iff.mp found
  by_cases same : k = id
  · subst same
    obtain ⟨object', there', equal⟩ := h.name object there
    rw [there', Option.map_some, equal]
  · rw [h.objects k object same there, Option.map_some]

theorem declares (h : Follows id d d') {scope : CollectScope} {k : Nat}
    {declaration : Tree.Member} {member : ObjectMember}
    (declared : d.Declares scope k declaration member) :
    d'.Declares scope k declaration member where
  name_eq := declared.name_eq
  parent_eq := declared.parent_eq
  means := by
    have means := declared.means
    cases declaration with
    | field f => exact means
    | method m =>
      obtain ⟨function, equal, found⟩ := means
      exact ⟨function, equal, h.functions _ _ found⟩
    | classDecl c =>
      obtain ⟨nested, equal, found⟩ := means
      exact ⟨nested, equal, h.map_name found⟩
    | interfaceDecl i =>
      obtain ⟨nested, equal, found⟩ := means
      exact ⟨nested, equal, h.map_name found⟩

theorem holds (h : Follows id d d') {k : Nat} {body : TypeBody} (other : k ≠ id)
    (holds : d.Holds k body) : d'.Holds k body := by
  obtain ⟨base, members, found, name, noMembers, noOverloads, declared, numbers⟩ := holds
  exact ⟨base, members, h.objects k _ other found, name, noMembers, noOverloads,
    declared.imp fun _ _ => h.declares, numbers⟩

theorem addFunction (id : Nat) (d : Dictionary) (function : FunctionType) :
    Follows id d (d.addFunction function).1 where
  functions k other found := by
    obtain ⟨lt, _⟩ := Array.getElem?_eq_some_iff.mp found
    simp only [Dictionary.addFunction, Array.getElem?_push, if_neg (Nat.ne_of_lt lt), found]
  objects _ _ _ found := found
  name object found := ⟨object, found, rfl⟩

theorem modifyObject (id : Nat) (d : Dictionary) {change : ObjectType → ObjectType}
    (keeps : ∀ object, (change object).name = object.name) :
    Follows id d (d.modifyObject id change) where
  functions _ _ found := found
  objects k object other found := by
    simp only [Dictionary.modifyObject, Array.getElem?_modify, if_neg (Ne.symm other), found]
  name object found := by
    refine ⟨change object, ?_, keeps object⟩
    simp only [Dictionary.modifyObject, Array.getElem?_modify, if_true, found, Option.map_some]

end Follows
end Dictionary

/-! ### Collecting -/

theorem ObjectType.name_declareAll (object : ObjectType) (members : List ObjectMember) :
    (object.declareAll members).name = object.name := by
  induction members generalizing object with
  | nil => rfl
  | cons member members ih =>
    refine (ih (object.declare member)).trans ?_
    unfold declare addMethod
    repeat' split
    all_goals rfl

/-- What holds of a member as it is declared, and still holds of a method under
another name, holds of all that is stored. -/
theorem ObjectType.forall_mem_declareAll {P : String × ObjectMember → Prop} {object : ObjectType}
    {members : List ObjectMember} (old : ∀ entry ∈ object.members.entries, P entry)
    (new : ∀ member ∈ members, P (member.name, member))
    (renamed : ∀ name member key, member.isMethod = true → P (key, member) →
      P (name, { member with name := name })) :
    ∀ entry ∈ (object.declareAll members).members.entries, P entry := by
  have insert (table : Table String ObjectMember) (key : String) (member : ObjectMember)
      (old : ∀ entry ∈ table.entries, P entry) (new : P (key, member)) :
      ∀ entry ∈ (table.insert key member).entries, P entry := by
    intro entry mem
    obtain rfl | mem := Table.mem_insertEntry mem
    · exact new
    · exact old entry mem
  induction members generalizing object with
  | nil => exact old
  | cons member members ih =>
    have here := new member List.mem_cons_self
    suffices declared : ∀ entry ∈ (object.declare member).members.entries, P entry from
      ih declared fun m mem => new m (List.mem_cons_of_mem _ mem)
    unfold declare
    split
    · next isMethod =>
      have overload (before : ObjectType) (old : ∀ entry ∈ before.members.entries, P entry) :
          ∀ entry ∈ (before.addOverload member).1.members.entries, P entry :=
        insert before.members _ _ old (renamed _ member member.name isMethod here)
      unfold addMethod
      split
      · next first found =>
        obtain ⟨found, isMethod⟩ := Option.filter_eq_some_iff.mp found
        refine overload _ (insert _ _ _ (fun entry mem => old entry (List.mem_filter.mp mem).1) ?_)
        exact renamed _ first member.name isMethod (old _ (Table.mem_of_find? found))
      · split
        · exact overload object old
        · exact insert _ _ _ old here
    · exact insert _ _ _ old here

namespace Collector

open Dictionary

/-- Object `id` is changed, but not in its members. -/
structure Readies (id : Nat) (d d' : Dictionary) : Prop where
  follows : Follows id d d'
  size_eq : d'.objects.size = d.objects.size
  object (object : ObjectType) : d.objects[id]? = some object →
    ∃ object', d'.objects[id]? = some object' ∧ object'.name = object.name ∧
      object'.members = object.members ∧ object'.overloads = object.overloads

/-- The types of `bodies` have come in, in order, and nothing else. -/
structure AddsTypes (bodies : List TypeBody) (d d' : Dictionary) : Prop where
  follows : Follows d.objects.size d d'
  size_eq : d'.objects.size = d.objects.size + bodies.length
  holds (k : Nat) (body : TypeBody) : bodies[k]? = some body → d'.Holds (d.objects.size + k) body

/-- The declarations are members of object `id`, and the types among them have
come in. -/
structure AddsMembers (scope : CollectScope) (id : Nat) (declarations : List Tree.Member)
    (d d' : Dictionary) : Prop where
  follows : Follows id d d'
  size_eq : d'.objects.size = d.objects.size + (membersTypes scope declarations).length
  holds (k : Nat) (body : TypeBody) : (membersTypes scope declarations)[k]? = some body →
    d'.Holds (d.objects.size + k) body
  object (object : ObjectType) : d.objects[id]? = some object →
    ∃ members, d'.objects[id]? = some (object.declareAll members) ∧
      List.Forall₂ (d'.Declares scope id) declarations members ∧
      NumbersTypes scope d.objects.size declarations members

namespace Readies

variable {id : Nat} {d d' d'' : Dictionary}

theorem refl (id : Nat) (d : Dictionary) : Readies id d d :=
  ⟨.refl id d, rfl, fun object found => ⟨object, found, rfl, rfl, rfl⟩⟩

theorem trans (h : Readies id d d') (h' : Readies id d' d'') : Readies id d d'' where
  follows := h.follows.trans h'.follows
  size_eq := h'.size_eq.trans h.size_eq
  object object found := by
    obtain ⟨object', found', name, members, overloads⟩ := h.object object found
    obtain ⟨object'', found'', name', members', overloads'⟩ := h'.object object' found'
    exact ⟨object'', found'', name'.trans name, members'.trans members, overloads'.trans overloads⟩

theorem addFunction (id : Nat) (d : Dictionary) (function : FunctionType) :
    Readies id d (d.addFunction function).1 :=
  ⟨.addFunction id d function, rfl, fun object found => ⟨object, found, rfl, rfl, rfl⟩⟩

theorem modifyObject (id : Nat) (d : Dictionary) (change : ObjectType → ObjectType)
    (name : ∀ object, (change object).name = object.name)
    (members : ∀ object, (change object).members = object.members)
    (overloads : ∀ object, (change object).overloads = object.overloads) :
    Readies id d (d.modifyObject id change) where
  follows := .modifyObject id d name
  size_eq := by simp [Dictionary.modifyObject]
  object object found := by
    refine ⟨change object, ?_, name object, members object, overloads object⟩
    simp [Dictionary.modifyObject, Array.getElem?_modify, found]

theorem forM {γ : Type} {f : γ → Collector PUnit}
    (step : ∀ x collection, Readies id collection.dictionary ((f x).run collection).2.dictionary)
    (xs : List γ) : ∀ collection : Collection,
      Readies id collection.dictionary ((xs.forM f).run collection).2.dictionary := by
  induction xs with
  | nil => exact fun collection => .refl id collection.dictionary
  | cons x xs ih =>
    intro collection
    exact (step x collection).trans (ih ((f x).run collection).2)

end Readies

theorem readies_addSupertypes (scope : CollectScope) (id : Nat) (types : List TypeRef)
    (collection : Collection) :
    Readies id collection.dictionary
      ((addSupertypes scope id types).run collection).2.dictionary :=
  .forM (fun type collection => .modifyObject id collection.dictionary
    (·.addSupertype (scope.constraint type)) (fun _ => rfl) (fun _ => rfl) fun _ => rfl) types collection

theorem readies_addConstructors (scope : CollectScope) (id : Nat) (constructors : List Tree.Method)
    (collection : Collection) :
    Readies id collection.dictionary
      ((addConstructors scope id constructors).run collection).2.dictionary :=
  .forM (fun method collection =>
    (Readies.addFunction id collection.dictionary (scope.functionType method (.object id))).trans
      (.modifyObject id _ (·.addConstructor collection.dictionary.functions.size) (fun _ => rfl)
        (fun _ => rfl) fun _ => rfl)) constructors collection

variable {scope : CollectScope} {id : Nat} {d d' d'' : Dictionary}

/-- A type is defined, and then its members are added. -/
theorem AddsTypes.of_members (base : ObjectType) {symbol : Symbol}
    {declarations : List Tree.Member} (noMembers : base.members = .empty)
    (noOverloads : base.overloads = .empty)
    (readies : Readies d.objects.size ((d.addObject base).1.addSymbol symbol) d')
    (adds : AddsMembers scope d.objects.size declarations d' d'') :
    AddsTypes (⟨scope, base.name, declarations⟩ :: membersTypes scope declarations) d d'' := by
  have defined : ((d.addObject base).1.addSymbol symbol).objects = d.objects.push base := rfl
  have size : d'.objects.size = d.objects.size + 1 := by
    rw [readies.size_eq, defined, Array.size_push]
  obtain ⟨object, found, name, members, overloads⟩ := readies.object base (by
    rw [defined, Array.getElem?_push_size])
  obtain ⟨added, found', declared, numbers⟩ := adds.object object found
  have first : Follows d.objects.size d ((d.addObject base).1.addSymbol symbol) := by
    refine ⟨fun _ _ found => found, fun k other ne found => ?_, fun other found => ?_⟩
    · rw [defined, Array.getElem?_push, if_neg ne, found]
    · rw [Array.getElem?_size] at found
      cases found
  constructor
  · exact (first.trans readies.follows).trans adds.follows
  · rw [adds.size_eq, size, List.length_cons]
    omega
  · intro k body hBody
    cases k with
    | zero =>
      obtain rfl := Option.some.inj hBody
      exact ⟨object, added, found', name, members.trans noMembers, overloads.trans noOverloads,
        declared, size ▸ numbers⟩
    | succ k =>
      have holds := adds.holds k body hBody
      rwa [size, Nat.add_assoc, Nat.add_comm 1 k] at holds

/-- First some types come in, and then others, while those that are there stay. -/
theorem holds_append {bodies bodies' : List TypeBody}
    (size : d'.objects.size = d.objects.size + bodies.length)
    (holds : ∀ k body, bodies[k]? = some body → d'.Holds (d.objects.size + k) body)
    (follows : Follows id d' d'') (other : ∀ k < bodies.length, d.objects.size + k ≠ id)
    (holds' : ∀ k body, bodies'[k]? = some body → d''.Holds (d'.objects.size + k) body)
    (k : Nat) (body : TypeBody) (hBody : (bodies ++ bodies')[k]? = some body) :
    d''.Holds (d.objects.size + k) body := by
  by_cases before : k < bodies.length
  · rw [List.getElem?_append_left before] at hBody
    exact follows.holds (other k before) (holds k body hBody)
  · rw [List.getElem?_append_right (Nat.not_lt.mp before)] at hBody
    have later := holds' _ body hBody
    rwa [size, Nat.add_assoc, Nat.add_sub_cancel' (Nat.not_lt.mp before)] at later

namespace AddsMembers

theorem nil (scope : CollectScope) (id : Nat) (d : Dictionary) : AddsMembers scope id [] d d where
  follows := .refl id d
  size_eq := rfl
  holds _ _ hBody := by cases hBody
  object object found := ⟨[], found, .nil, fun i _ _ here => by cases here⟩

/-- The members of the first declaration are there before those of the others. -/
theorem cons {declaration : Tree.Member} {declarations : List Tree.Member}
    (known : id < d.objects.size) (h : AddsMembers scope id [declaration] d d')
    (h' : AddsMembers scope id declarations d' d'') :
    AddsMembers scope id (declaration :: declarations) d d'' := by
  have size := h.size_eq
  have holds := h.holds
  rw [membersTypes_singleton] at size holds
  constructor
  · exact h.follows.trans h'.follows
  · rw [h'.size_eq, size, membersTypes, List.length_append, Nat.add_assoc]
  · rw [membersTypes]
    exact holds_append size holds h'.follows (fun k _ => by omega) h'.holds
  · intro object found
    obtain ⟨first, found', declared, numbers⟩ := h.object object found
    obtain ⟨rest, found'', declared', numbers'⟩ := h'.object _ found'
    refine ⟨first ++ rest, ?_, ?_, ?_⟩
    · rw [found'', ObjectType.declareAll, ObjectType.declareAll, ObjectType.declareAll,
        List.foldl_append]
    · exact List.rel_append (declared.imp fun _ _ => h'.follows.declares) declared'
    · obtain ⟨member, rfl⟩ := List.length_eq_one_iff.mp declared.length_eq.symm
      intro i other member' here there types
      cases i with
      | zero => exact numbers 0 other member' here there types
      | succ i =>
        rw [numbers' i other member' here there types, size, List.take_succ_cons, membersTypes,
          List.length_append, Nat.add_assoc]

/-- The types of a declaration come in, and then its member does. -/
theorem of_change {declaration : Tree.Member} {member : ObjectMember}
    {change : ObjectType → ObjectType} (known : id < d.objects.size)
    (types : AddsTypes (memberTypes scope declaration) d d')
    (isChange : ∀ object, change object = object.declare member)
    (declared : d'.Declares scope id declaration member)
    (number : memberTypes scope declaration ≠ [] → member.constraint = .objectType d.objects.size) :
    AddsMembers scope id [declaration] d (d'.modifyObject id change) := by
  have changes : Follows id d' (d'.modifyObject id change) := .modifyObject id d' fun object => by
    rw [isChange]
    exact object.name_declareAll [member]
  constructor
  · exact (types.follows.of_new id).trans changes
  · rw [membersTypes_singleton, ← types.size_eq]
    simp [Dictionary.modifyObject]
  · intro k body hBody
    rw [membersTypes_singleton] at hBody
    exact changes.holds (by omega) (types.holds k body hBody)
  · intro object found
    refine ⟨[member], ?_, .cons (changes.declares declared) .nil, ?_⟩
    · have found' := types.follows.objects id object (Nat.ne_of_lt known) found
      simp only [Dictionary.modifyObject, Array.getElem?_modify, if_true, found', Option.map_some,
        isChange]
      rfl
    · intro i other member' here there nested
      cases i with
      | zero =>
        cases here
        cases there
        exact number nested
      | succ i => cases here

end AddsMembers

theorem AddsTypes.trans {bodies bodies' : List TypeBody} (h : AddsTypes bodies d d')
    (h' : AddsTypes bodies' d' d'') : AddsTypes (bodies ++ bodies') d d'' := by
  have size := h.size_eq
  constructor
  · exact h.follows.trans (h'.follows.of_new _)
  · rw [h'.size_eq, size, List.length_append, Nat.add_assoc]
  · exact holds_append size h.holds h'.follows (fun k _ => by omega) h'.holds

theorem AddsTypes.of_follows (follows : ∀ id, Follows id d d') (size : d'.objects.size = d.objects.size) :
    AddsTypes [] d d' :=
  ⟨follows _, size, fun _ _ hBody => by cases hBody⟩

theorem declare_of_isMethod {member : ObjectMember} (h : member.isMethod = true)
    (object : ObjectType) : (object.addMethod member).1 = object.declare member := by
  rw [ObjectType.declare, if_pos h]

theorem declare_of_not_isMethod {member : ObjectMember} (h : member.isMethod = false)
    (object : ObjectType) : object.addMember member = object.declare member := by
  rw [ObjectType.declare, if_neg (by rw [h]; decide)]

theorem isFunction_constraint (scope : CollectScope) (type : TypeRef) :
    (scope.constraint type).isFunction = false := by
  have data : (scope.constraint type).definition.IsData :=
    (coversData_constraint (d := .empty) scope type).2
  revert data
  unfold Constraint.isFunction
  cases (scope.constraint type).definition <;> intro data <;> first | rfl | cases data

theorem addsMembers_addField (inInterface : Bool) (f : Tree.Field) {collection : Collection}
    (known : id < collection.dictionary.objects.size) :
    AddsMembers scope id [.field f] collection.dictionary
      ((addField scope id inInterface f).run collection).2.dictionary := by
  refine .of_change known (.of_follows (.refl · _) rfl)
    (fun object => declare_of_not_isMethod ?_ object) ⟨rfl, rfl, rfl⟩ (absurd rfl)
  exact isFunction_constraint scope f.type

theorem addsMembers_addMethod (inInterface : Bool) (m : Tree.Method) {collection : Collection}
    (known : id < collection.dictionary.objects.size) :
    AddsMembers scope id [.method m] collection.dictionary
      ((addMethod scope id inInterface m).run collection).2.dictionary :=
  .of_change known
    (.of_follows (.addFunction · collection.dictionary (scope.methodType m)) rfl)
    (fun object => declare_of_isMethod rfl object)
    ⟨rfl, rfl, _, rfl, Array.getElem?_push_size⟩ (absurd rfl)

/-- A type in the body of object `id` is collected, and becomes its member. -/
theorem addsMembers_addNested (declaration : Tree.Member) (modifiers : Modifiers)
    {collection collection' : Collection} (known : id < collection.dictionary.objects.size)
    (types : AddsTypes (memberTypes scope declaration) collection.dictionary collection'.dictionary)
    (means : collection'.dictionary.Means scope declaration
      (.objectType collection.dictionary.objects.size)) :
    AddsMembers scope id [declaration] collection.dictionary
      ((addNested id declaration.name modifiers collection.dictionary.objects.size).run
        collection').2.dictionary :=
  .of_change known types (fun object => declare_of_not_isMethod rfl object) ⟨rfl, rfl, means⟩
    fun _ => rfl

/-- The first of the types that come in is the one that was declared. -/
theorem AddsTypes.map_name {bodies : List TypeBody} {name : String} (h : AddsTypes bodies d d')
    (head : bodies.head?.map (·.name) = some name) :
    d'.objects[d.objects.size]?.map (·.name) = some name := by
  obtain ⟨body, first, rfl⟩ := Option.map_eq_some_iff.mp head
  obtain ⟨base, members, found, name, _⟩ := h.holds 0 body (List.head?_eq_getElem? ▸ first)
  rw [Nat.add_zero] at found
  rw [found, Option.map_some, ObjectType.name_declareAll, name]

mutual

theorem addsTypes_collectClass (scope : CollectScope) : (c : Tree.ClassDecl) →
    (collection : Collection) →
    ((collectClass scope c).run collection).1 = collection.dictionary.objects.size ∧
    AddsTypes (classTypes scope c) collection.dictionary
      ((collectClass scope c).run collection).2.dictionary
  | ⟨modifiers, name, typeParameters, extended, implemented, constructors, members, _, _, _,
      isEnum, _⟩, collection => by
    unfold collectClass classTypes
    refine ⟨rfl, ?_⟩
    have supertypes := readies_addSupertypes (scope.inside name typeParameters)
      collection.dictionary.objects.size (extended ++ implemented)
      ((define scope (classObject name modifiers typeParameters isEnum)).run collection).2
    have readies := supertypes.trans (readies_addConstructors (scope.inside name typeParameters)
      collection.dictionary.objects.size constructors _)
    refine .of_members (classObject name modifiers typeParameters isEnum) rfl rfl readies
      (addsMembers_collectMembers _ _ false members _ ?_)
    rw [readies.size_eq]
    exact Nat.lt_of_lt_of_eq (Nat.lt_succ_self _) (Array.size_push _).symm

theorem addsTypes_collectInterface (scope : CollectScope) : (i : Tree.InterfaceDecl) →
    (collection : Collection) →
    ((collectInterface scope i).run collection).1 = collection.dictionary.objects.size ∧
    AddsTypes (interfaceTypes scope i) collection.dictionary
      ((collectInterface scope i).run collection).2.dictionary
  | ⟨_, name, typeParameters, extended, members, _, _⟩, collection => by
    unfold collectInterface interfaceTypes
    refine ⟨rfl, ?_⟩
    have readies := readies_addSupertypes (scope.inside name typeParameters)
      collection.dictionary.objects.size extended
      ((define scope { ObjectType.new name .interfaceType with
        typeParameters := typeParameters }).run collection).2
    refine .of_members { ObjectType.new name .interfaceType with
      typeParameters := typeParameters } rfl rfl readies
      (addsMembers_collectMembers _ _ true members _ ?_)
    rw [readies.size_eq]
    exact Nat.lt_of_lt_of_eq (Nat.lt_succ_self _) (Array.size_push _).symm

theorem addsMembers_collectMembers (scope : CollectScope) (id : Nat) (inInterface : Bool) :
    (ms : List Tree.Member) → (collection : Collection) →
    id < collection.dictionary.objects.size →
    AddsMembers scope id ms collection.dictionary
      ((collectMembers scope id inInterface ms).run collection).2.dictionary
  | [], collection, _ => .nil scope id collection.dictionary
  | m :: ms, collection, known => by
    have first := addsMembers_collectMember scope id inInterface m collection known
    have known' : id <
        ((collectMember scope id inInterface m).run collection).2.dictionary.objects.size := by
      rw [first.size_eq]
      omega
    unfold collectMembers
    exact .cons known first (addsMembers_collectMembers scope id inInterface ms _ known')

theorem addsMembers_collectMember (scope : CollectScope) (id : Nat) (inInterface : Bool) :
    (m : Tree.Member) → (collection : Collection) → id < collection.dictionary.objects.size →
    AddsMembers scope id [m] collection.dictionary
      ((collectMember scope id inInterface m).run collection).2.dictionary
  | .field f, collection, known => addsMembers_addField inInterface f known
  | .method m, collection, known => addsMembers_addMethod inInterface m known
  | .classDecl c, collection, known => by
    obtain ⟨number, types⟩ := addsTypes_collectClass scope c collection
    have nested := addsMembers_addNested (.classDecl c) c.modifiers known types
      ⟨_, rfl, types.map_name (by cases c; rfl)⟩
    rw [← number] at nested
    unfold collectMember
    exact nested
  | .interfaceDecl i, collection, known => by
    obtain ⟨number, types⟩ := addsTypes_collectInterface scope i collection
    have nested := addsMembers_addNested (.interfaceDecl i) i.modifiers known types
      ⟨_, rfl, types.map_name (by cases i; rfl)⟩
    rw [← number] at nested
    unfold collectMember
    exact nested

end

theorem addsTypes_collectItem (scope : CollectScope) (item : Tree.TopLevel)
    (collection : Collection) :
    AddsTypes (itemTypes scope item) collection.dictionary
      ((collectItem scope item).run collection).2.dictionary := by
  cases item with
  | importDecl i => exact .of_follows (.refl · _) rfl
  | classDecl c => exact (addsTypes_collectClass scope c collection).2
  | interfaceDecl i => exact (addsTypes_collectInterface scope i collection).2

theorem addsTypes_forM (scope : CollectScope) (items : List Tree.TopLevel) :
    ∀ collection : Collection,
      AddsTypes (items.flatMap (itemTypes scope)) collection.dictionary
        ((items.forM (collectItem scope)).run collection).2.dictionary := by
  induction items with
  | nil => exact fun _ => .of_follows (.refl · _) rfl
  | cons item items ih =>
    intro collection
    exact (addsTypes_collectItem scope item collection).trans
      (ih ((collectItem scope item).run collection).2)

end Collector

namespace Dictionary

/-- The number of the first type that is declared. -/
def firstDeclared : Nat := native.objects.size

theorem addsTypes_ofFiles (files : List (FileNamespace × SourceTree)) :
    Collector.AddsTypes (typeBodies files) native (ofFiles files) := by
  unfold ofFiles
  generalize native = d
  induction files generalizing d with
  | nil => exact .of_follows (.refl · d) rfl
  | cons file files ih =>
    exact (Collector.addsTypes_forM ⟨file.1, [], []⟩ file.2.items ⟨d, []⟩).trans (ih _)

/-- The declared types are in the dictionary with their members, in the order
of the source. -/
theorem holds_ofFiles {files : List (FileNamespace × SourceTree)} {k : Nat} {body : TypeBody}
    (h : (typeBodies files)[k]? = some body) : (ofFiles files).Holds (firstDeclared + k) body :=
  (addsTypes_ofFiles files).holds k body h

theorem Holds.only {d : Dictionary} {id : Nat} {body : TypeBody} (h : d.Holds id body) :
    d.HoldsOnly id body := by
  obtain ⟨base, members, found, -, noMembers, -, declared, -⟩ := h
  refine ⟨base.declareAll members, found, ObjectType.forall_mem_declareAll ?_ ?_ ?_⟩
  · rw [noMembers]
    exact fun _ mem => absurd mem List.not_mem_nil
  · intro member mem
    obtain ⟨⟨i, lt⟩, rfl⟩ := List.get_of_mem mem
    obtain ⟨same, stands⟩ := List.forall₂_iff_get.mp declared
    exact ⟨body.members.get ⟨i, same ▸ lt⟩, List.get_mem _ _, (stands i _ lt).means,
      fun _ => (stands i _ lt).name_eq⟩
  · rintro name member key isMethod ⟨declaration, mem, means, -⟩
    exact ⟨declaration, mem, means, fun other => by cases isMethod.symm.trans other⟩

/-- **Collected dictionaries hold together.** Whatever files are collected, and
whatever they declare twice or inside each other, the dictionary is well-formed.
No type that is written down holds a function, and the dictionary stores for a
declared field just the type that is written down; the members of a declared
type are all those of its declarations. Hence a reference means the
definition of one symbol, an object type of the dictionary or anything, and no
second reference is followed; what is met in a type or above an object type is
in the dictionary; and naming and comparing types ends: their answers are those
of finitely many rounds, whatever would be put for the types deeper inside. -/
theorem ofFiles_sound (files : List (FileNamespace × SourceTree)) :
    let d := ofFiles files
    d.WellFormed ∧
    (∀ (scope : CollectScope) (type : TypeRef), (scope.constraint type).definition.IsData) ∧
    (∀ (k : Nat) (body : TypeBody), (typeBodies files)[k]? = some body →
      d.Holds (firstDeclared + k) body ∧ d.HoldsOnly (firstDeclared + k) body) ∧
    (∀ depth candidates, d.resolveCandidatesAt (depth + 1) candidates =
      (d.lookupFirst candidates).constraint.definition) ∧
    (∀ candidates, d.resolveCandidates candidates = .simple .dynamic ∨
      ∃ id < d.objects.size, d.resolveCandidates candidates = .object id) ∧
    (∀ constraint, d.Covers constraint.definition → d.Covers (d.resolve constraint).definition ∧
      ∀ i ∈ d.inner constraint, d.Covers i.definition) ∧
    (∀ id < d.objects.size, ∀ ancestor ∈ d.ancestry id, ancestor < d.objects.size) ∧
    (∀ constraint n name, d.typeDepth constraint.definition ≤ n →
      d.typeName constraint = d.typeNameBy^[n] name constraint) ∧
    (∀ source target n matching, d.typeDepth source.definition ≤ n →
      d.fits source target = d.fitsBy^[n] matching source target) := by
  intro d
  have h : d.WellFormed := wellFormed_ofFiles files
  exact ⟨h, fun scope type => (Collector.coversData_constraint (d := d) scope type).2,
    fun _ _ declared => ⟨holds_ofFiles declared, (holds_ofFiles declared).only⟩, h.resolveCandidatesAt_succ, h.resolveCandidates_eq,
    fun _ covered => ⟨h.covers_resolve covered, h.covers_inner covered⟩,
    fun _ known _ mem => h.lt_of_mem_ancestry known mem,
    fun _ _ name deep => h.typeName_eq_iterate deep name,
    fun _ _ _ matching deep => h.fits_eq_iterate deep matching⟩

/-- A class extends itself and holds a class of its own name. -/
theorem ofFiles_sound_nested :
    let inside : Tree.ClassDecl := ⟨{}, "A", [], [.named "A" 0], [], [], [], [], [], [], false, 0⟩
    let tree : SourceTree :=
      { package := none
        items := [.classDecl { inside with members := [.classDecl inside] }]
        tokens := .link [] 1 "" }
    let d := ofFiles [(.new "A.java", tree)]
    3 < d.objects.size ∧ (∀ ancestor ∈ d.ancestry 3, ancestor < d.objects.size) ∧
      d.typeName (.arrayOf (.object 3)) = d.typeNameBy^[2] (fun _ => "") (.arrayOf (.object 3)) := by
  intro inside tree d
  have known : 3 < d.objects.size := by decide
  have deep : d.typeDepth (.array (.object 3) false) ≤ 2 := Nat.le_refl 2
  obtain ⟨_, _, _, _, _, _, ancestry, names, _⟩ := ofFiles_sound [(.new "A.java", tree)]
  exact ⟨known, ancestry 3 known, names (.arrayOf (.object 3)) 2 _ deep⟩

end Dictionary

end Javascribe

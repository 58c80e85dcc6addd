/-
# Dictionaries are well-formed

Whatever files are collected, the dictionary holds together: every number in
it is the number of an object type or function it holds, members know their
object and are stored under their names, a symbol is an object type or can be
anything, and only methods are functions. So a reference is resolved in one
step, and naming and comparing types ends: after as many rounds as the type
is deep, what stands for the deeper types no longer matters
(`typeNameBy_iterate`, `fitsBy_iterate`).

Collecting is followed step by step. Each step is proved of every dictionary
that has grown out of the one before (`Dictionary.Grows`), since a number once
given stays valid.

Key definitions: `Dictionary.Covers`, `Definition.IsData`,
`Dictionary.WellFormed`, `Collector.Extends`, `Dictionary.ofFiles`.
Key theorems: `Collector.extends_collectClass`, `Dictionary.wellFormed_ofFiles`,
`Dictionary.WellFormed.resolveCandidatesAt_succ`.
-/
import Javascribe.Proofs.Matching
import Javascribe.Typing.Collect

namespace Javascribe

/-! ### What holds of a dictionary -/

/-- No function is inside a definition. -/
def Definition.IsData : Definition → Prop
  | .function _ => False
  | .array element _ => element.IsData
  | _ => True

namespace Dictionary

/-- The numbers in a definition are numbers of this dictionary. -/
def Covers (d : Dictionary) : Definition → Prop
  | .object id => id < d.objects.size
  | .function id => id < d.functions.size
  | .array element _ => d.Covers element
  | _ => True

/-- A type that can be written down: it is covered, and no function is inside. -/
def CoversData (d : Dictionary) (constraint : Constraint) : Prop :=
  d.Covers constraint.definition ∧ constraint.definition.IsData

/-- A member that object `id` can have: a method, or something of a type that
can be written down. -/
structure CoversMember (d : Dictionary) (id : Nat) (member : ObjectMember) : Prop where
  parent : member.parent = id
  constraint : (∃ function < d.functions.size, member.constraint = .function function) ∨
    d.CoversData member.constraint

/-- What holds of object type `id`. -/
structure CoversObject (d : Dictionary) (id : Nat) (object : ObjectType) : Prop where
  members : ∀ entry ∈ object.members.entries, entry.2.name = entry.1 ∧ d.CoversMember id entry.2
  constructors : ∀ function ∈ object.constructors, function < d.functions.size
  supertypes : ∀ supertype ∈ object.supertypes, d.CoversData supertype

/-- What holds of a function. -/
structure CoversFunction (d : Dictionary) (function : FunctionType) : Prop where
  parameters : ∀ parameter ∈ function.parameters, d.CoversData parameter
  result : d.CoversData function.result

/-- What holds of a symbol: it is an object type, or can be anything. -/
def CoversSymbol (d : Dictionary) (symbol : Symbol) : Prop :=
  symbol.constraint = .dynamic ∨ ∃ id < d.objects.size, symbol.constraint = .objectType id

/-- All that a dictionary holds is about things that it holds. -/
structure WellFormed (d : Dictionary) : Prop where
  object (id : Nat) (object : ObjectType) : d.objects[id]? = some object → d.CoversObject id object
  function (function : FunctionType) : function ∈ d.functions → d.CoversFunction function
  symbol : ∀ entry ∈ d.symbols.entries, d.CoversSymbol entry.2

/-- Nothing that the first dictionary numbers is missing in the second. -/
structure Grows (d d' : Dictionary) : Prop where
  objects : d.objects.size ≤ d'.objects.size
  functions : d.functions.size ≤ d'.functions.size

namespace Grows

variable {d d' d'' : Dictionary}

theorem refl (d : Dictionary) : d.Grows d := ⟨Nat.le_refl _, Nat.le_refl _⟩

theorem trans (h : d.Grows d') (h' : d'.Grows d'') : d.Grows d'' :=
  ⟨Nat.le_trans h.objects h'.objects, Nat.le_trans h.functions h'.functions⟩

variable (h : d.Grows d')
include h

theorem covers {definition : Definition} (hd : d.Covers definition) : d'.Covers definition := by
  induction definition with
  | object id => exact Nat.lt_of_lt_of_le hd h.objects
  | function id => exact Nat.lt_of_lt_of_le hd h.functions
  | array element _ ih => exact ih hd
  | simple _ => trivial
  | unresolved _ => trivial

theorem coversData {constraint : Constraint} (hc : d.CoversData constraint) :
    d'.CoversData constraint :=
  ⟨h.covers hc.1, hc.2⟩

theorem coversMember {id : Nat} {member : ObjectMember} (hm : d.CoversMember id member) :
    d'.CoversMember id member where
  parent := hm.parent
  constraint := by
    obtain ⟨function, lt, equal⟩ | data := hm.constraint
    · exact .inl ⟨function, Nat.lt_of_lt_of_le lt h.functions, equal⟩
    · exact .inr (h.coversData data)

theorem coversObject {id : Nat} {object : ObjectType} (ho : d.CoversObject id object) :
    d'.CoversObject id object where
  members entry mem := ⟨(ho.members entry mem).1, h.coversMember (ho.members entry mem).2⟩
  constructors function mem := Nat.lt_of_lt_of_le (ho.constructors function mem) h.functions
  supertypes supertype mem := h.coversData (ho.supertypes supertype mem)

theorem coversFunction {function : FunctionType} (hf : d.CoversFunction function) :
    d'.CoversFunction function :=
  ⟨fun parameter mem => h.coversData (hf.parameters parameter mem), h.coversData hf.result⟩

theorem coversSymbol {symbol : Symbol} (hs : d.CoversSymbol symbol) : d'.CoversSymbol symbol := by
  obtain dynamic | ⟨id, lt, equal⟩ := hs
  · exact .inl dynamic
  · exact .inr ⟨id, Nat.lt_of_lt_of_le lt h.objects, equal⟩

end Grows
end Dictionary

/-! ### Changes of object types -/

theorem Dictionary.CoversMember.stored {d : Dictionary} {id : Nat} {member : ObjectMember}
    (h : d.CoversMember id member) (name : String) :
    d.CoversMember id { member with name := name } :=
  ⟨h.parent, h.constraint⟩

namespace Dictionary.CoversObject

variable {d : Dictionary} {id : Nat} {object : ObjectType}

theorem new (name : String) (category : ObjectCategory) :
    d.CoversObject id (.new name category) := by
  constructor <;> exact fun _ mem => absurd mem List.not_mem_nil

/-- A member under its name may come in, whatever goes. -/
theorem withMember {members : Table String ObjectMember} {member : ObjectMember}
    (h : d.CoversObject id object) (hm : d.CoversMember id member)
    (old : ∀ entry ∈ members.entries, entry ∈ object.members.entries)
    (overloads : Table String (List String)) :
    d.CoversObject id { object with
      members := members.insert member.name member, overloads := overloads } where
  members entry mem := by
    obtain rfl | mem := Table.mem_insertEntry mem
    · exact ⟨rfl, hm⟩
    · exact h.members entry (old entry mem)
  constructors := h.constructors
  supertypes := h.supertypes

theorem addMember {member : ObjectMember} (h : d.CoversObject id object)
    (hm : d.CoversMember id member) : d.CoversObject id (object.addMember member) :=
  h.withMember hm (fun _ mem => mem) object.overloads

theorem renameFirst {name : String} {first : ObjectMember} (h : d.CoversObject id object)
    (hm : d.CoversMember id first) : d.CoversObject id (object.renameFirst name first) :=
  h.withMember (hm.stored (overloadName name 0)) (fun _ mem => (List.mem_filter.mp mem).1) _

theorem addOverload {member : ObjectMember} (h : d.CoversObject id object)
    (hm : d.CoversMember id member) : d.CoversObject id (object.addOverload member).1 :=
  h.withMember (hm.stored (overloadName member.name _)) (fun _ mem => mem) _

theorem addMethod {member : ObjectMember} (h : d.CoversObject id object)
    (hm : d.CoversMember id member) : d.CoversObject id (object.addMethod member).1 := by
  unfold ObjectType.addMethod
  split
  · next first found =>
    obtain ⟨found, _⟩ := Option.filter_eq_some_iff.mp found
    have stored := (h.members _ (Table.mem_of_find? found)).2
    exact (h.renameFirst stored).addOverload hm
  · split
    · exact h.addOverload hm
    · exact h.addMember hm

theorem addConstructor {function : Nat} (h : d.CoversObject id object)
    (known : function < d.functions.size) : d.CoversObject id (object.addConstructor function) where
  members := h.members
  constructors other mem := by
    obtain mem | mem := List.mem_append.mp mem
    · exact h.constructors other mem
    · exact List.mem_singleton.mp mem ▸ known
  supertypes := h.supertypes

theorem addSupertype {supertype : Constraint} (h : d.CoversObject id object)
    (data : d.CoversData supertype) : d.CoversObject id (object.addSupertype supertype) where
  members := h.members
  constructors := h.constructors
  supertypes other mem := by
    obtain mem | mem := List.mem_append.mp mem
    · exact h.supertypes other mem
    · exact List.mem_singleton.mp mem ▸ data

end Dictionary.CoversObject

/-! ### Changes of dictionaries -/

namespace Dictionary

variable (d : Dictionary)

theorem grows_addObject (object : ObjectType) : d.Grows (d.addObject object).1 :=
  ⟨by simp [addObject], Nat.le_refl _⟩

theorem grows_addFunction (function : FunctionType) : d.Grows (d.addFunction function).1 :=
  ⟨Nat.le_refl _, by simp [addFunction]⟩

theorem grows_addSymbol (symbol : Symbol) : d.Grows (d.addSymbol symbol) :=
  ⟨Nat.le_refl _, Nat.le_refl _⟩

theorem grows_modifyObject (id : Nat) (change : ObjectType → ObjectType) :
    d.Grows (d.modifyObject id change) :=
  ⟨by simp [modifyObject], Nat.le_refl _⟩

end Dictionary

namespace Dictionary.WellFormed

variable {d : Dictionary} (h : d.WellFormed)
include h

theorem addObject {object : ObjectType}
    (ho : (d.addObject object).1.CoversObject d.objects.size object) :
    (d.addObject object).1.WellFormed where
  object id other found := by
    simp only [Dictionary.addObject, Array.getElem?_push] at found
    split at found
    · next last =>
      cases found
      exact last ▸ ho
    · exact (d.grows_addObject object).coversObject (h.object id other found)
  function function mem := (d.grows_addObject object).coversFunction (h.function function mem)
  symbol entry mem := (d.grows_addObject object).coversSymbol (h.symbol entry mem)

theorem addSymbol {symbol : Symbol} (hs : d.CoversSymbol symbol) : (d.addSymbol symbol).WellFormed where
  object id object found := (d.grows_addSymbol symbol).coversObject (h.object id object found)
  function function mem := (d.grows_addSymbol symbol).coversFunction (h.function function mem)
  symbol entry mem := by
    obtain rfl | mem := Table.mem_insertEntry mem
    · exact (d.grows_addSymbol symbol).coversSymbol hs
    · exact (d.grows_addSymbol symbol).coversSymbol (h.symbol entry mem)

theorem addFunction {function : FunctionType} (hf : d.CoversFunction function) :
    (d.addFunction function).1.WellFormed where
  object id object found := (d.grows_addFunction function).coversObject (h.object id object found)
  function other mem := by
    obtain mem | rfl := Array.mem_push.mp mem
    · exact (d.grows_addFunction function).coversFunction (h.function other mem)
    · exact (d.grows_addFunction other).coversFunction hf
  symbol := h.symbol

theorem modifyObject {id : Nat} {change : ObjectType → ObjectType}
    (hc : ∀ object, d.CoversObject id object → d.CoversObject id (change object)) :
    (d.modifyObject id change).WellFormed := by
  have grown := d.grows_modifyObject id change
  refine ⟨fun other object found => ?_, fun function mem => grown.coversFunction (h.function function mem),
    fun entry mem => grown.coversSymbol (h.symbol entry mem)⟩
  simp only [Dictionary.modifyObject, Array.getElem?_modify] at found
  split at found
  · next same =>
    subst same
    obtain ⟨before, there, rfl⟩ := Option.map_eq_some_iff.mp found
    exact grown.coversObject (hc before (h.object _ before there))
  · exact grown.coversObject (h.object other object found)

end Dictionary.WellFormed

/-! ### Collecting -/

namespace Collector

variable {α β : Type} {d : Dictionary}

/-- In every well-formed dictionary grown out of `d` the collector leads to a
well-formed one that has grown further, and `post` holds of its result there. -/
def Extends (d : Dictionary) (post : α → Dictionary → Prop) (m : Collector α) : Prop :=
  ∀ collection : Collection, collection.dictionary.WellFormed → d.Grows collection.dictionary →
    (m.run collection).2.dictionary.WellFormed ∧
    collection.dictionary.Grows (m.run collection).2.dictionary ∧
    post (m.run collection).1 (m.run collection).2.dictionary

/-- A collector about whose result nothing is said. -/
abbrev Maintains (d : Dictionary) (m : Collector α) : Prop := Extends d (fun _ _ => True) m

theorem Extends.bind {post : α → Dictionary → Prop} {post' : β → Dictionary → Prop}
    {m : Collector α} {f : α → Collector β} (hm : Extends d post m)
    (hf : ∀ a d', d.Grows d' → post a d' → Extends d' post' (f a)) :
    Extends d post' (m >>= f) := by
  intro collection wellFormed grown
  obtain ⟨wellFormed', grown', holds⟩ := hm collection wellFormed grown
  obtain ⟨wellFormed'', grown'', holds'⟩ := hf (m.run collection).1 _ (grown.trans grown') holds
    (m.run collection).2 wellFormed' (.refl _)
  exact ⟨wellFormed'', grown'.trans grown'', holds'⟩

theorem Extends.pure {post : α → Dictionary → Prop} {a : α}
    (h : ∀ d', d.Grows d' → post a d') : Extends d post (pure a : Collector α) :=
  fun collection wellFormed grown => ⟨wellFormed, .refl _, h collection.dictionary grown⟩

theorem Maintains.forM {γ : Type} {f : γ → Collector PUnit} (xs : List γ)
    (hf : ∀ x d', d.Grows d' → Maintains d' (f x)) : Maintains d (xs.forM f) := by
  induction xs generalizing d with
  | nil => exact .pure fun _ _ => trivial
  | cons x xs ih =>
    exact (hf x d (.refl d)).bind fun _ d' grown _ =>
      ih fun x d'' grown' => hf x d'' (grown.trans grown')

/-! #### Single steps -/

theorem extends_define (scope : CollectScope) {object : ObjectType}
    (ho : ∀ d id, Dictionary.CoversObject d id object) :
    Extends d (fun id d' => id < d'.objects.size) (define scope object) := by
  intro collection wellFormed _
  have grown := collection.dictionary.grows_addObject object
  have last : collection.dictionary.objects.size <
      (collection.dictionary.addObject object).1.objects.size := by simp [Dictionary.addObject]
  exact ⟨(wellFormed.addObject (ho _ _)).addSymbol (.inr ⟨_, last, rfl⟩), ⟨grown.objects, grown.functions⟩,
    last⟩

theorem extends_addFunction {function : FunctionType}
    (hf : ∀ d', d.Grows d' → d'.CoversFunction function) :
    Extends d (fun id d' => id < d'.functions.size) (addFunction function) := by
  intro collection wellFormed grown
  refine ⟨wellFormed.addFunction (hf _ grown), collection.dictionary.grows_addFunction function, ?_⟩
  show collection.dictionary.functions.size <
    (collection.dictionary.addFunction function).1.functions.size
  simp [Dictionary.addFunction]

theorem maintains_modifyObject {id : Nat} {change : ObjectType → ObjectType}
    (hc : ∀ d', d.Grows d' → ∀ object, d'.CoversObject id object → d'.CoversObject id (change object)) :
    Maintains d (modifyObject id change) :=
  fun collection wellFormed grown =>
    ⟨wellFormed.modifyObject (hc _ grown), collection.dictionary.grows_modifyObject id change,
      trivial⟩

/-! #### Types that are written down -/

theorem coversData_arrayWith {element : Constraint} (h : d.CoversData element) :
    ∀ dimensions, d.CoversData (element.arrayWith dimensions)
  | 0 => h
  | dimensions + 1 => coversData_arrayWith h dimensions

theorem coversData_simple (type : SimpleType) : d.CoversData (.simple type) := ⟨trivial, trivial⟩

theorem coversData_native {name : String} {constraint : Constraint}
    (h : Native.type? name = some constraint) : d.CoversData constraint := by
  unfold Native.type? at h
  repeat' split at h
  all_goals first
    | cases h; exact coversData_simple _
    | cases h

/-- The type of a declaration refers to others by name only. -/
theorem coversData_constraint (scope : CollectScope) (type : TypeRef) :
    d.CoversData (scope.constraint type) := by
  refine coversData_arrayWith ?_ type.dimensions
  have reference : d.CoversData
      (.unresolved (scope.space.candidates scope.enclosing type.names)) := ⟨trivial, trivial⟩
  split
  · exact reference
  · split
    · exact coversData_simple .dynamic
    · cases hNative : Native.type? type.name with
      | none => exact reference
      | some native => exact coversData_native hNative

theorem coversFunction_functionType (scope : CollectScope) (method : Tree.Method)
    {result : Constraint} (hr : d.CoversData result) :
    d.CoversFunction (scope.functionType method result) where
  parameters parameter mem := by
    obtain ⟨declared, _, rfl⟩ := List.mem_map.mp mem
    unfold CollectScope.parameter
    split
    · exact coversData_constraint scope declared.type
    · exact coversData_constraint scope declared.type
  result := hr

theorem coversFunction_methodType (scope : CollectScope) (method : Tree.Method) :
    d.CoversFunction (scope.methodType method) := by
  refine coversFunction_functionType _ method ?_
  cases method.type with
  | none => exact coversData_simple .void
  | some type => exact coversData_constraint _ type

/-! #### Declarations -/

variable (scope : CollectScope) {id : Nat}

theorem maintains_addSupertypes (types : List TypeRef) : Maintains d (addSupertypes scope id types) :=
  .forM types fun type _ _ => maintains_modifyObject fun _ _ _ h =>
    h.addSupertype (coversData_constraint scope type)

theorem maintains_addConstructors (known : id < d.objects.size) (constructors : List Tree.Method) :
    Maintains d (addConstructors scope id constructors) := by
  refine .forM constructors fun method d' grown => ?_
  have own (d'' : Dictionary) (grown' : d'.Grows d'') : d''.CoversData (.object id) :=
    ⟨Nat.lt_of_lt_of_le known (grown.trans grown').objects, trivial⟩
  refine (extends_addFunction fun d'' grown' =>
    coversFunction_functionType scope method (own d'' grown')).bind fun function d'' _ added => ?_
  exact maintains_modifyObject fun _ grown' _ h =>
    h.addConstructor (Nat.lt_of_lt_of_le added grown'.functions)

theorem maintains_addField (inInterface : Bool) (field : Tree.Field) :
    Maintains d (addField scope id inInterface field) :=
  maintains_modifyObject fun _ _ _ h =>
    h.addMember ⟨rfl, .inr (coversData_constraint scope field.type)⟩

theorem maintains_addMethod (inInterface : Bool) (method : Tree.Method) :
    Maintains d (addMethod scope id inInterface method) := by
  refine (extends_addFunction fun _ _ => coversFunction_methodType scope method).bind
    fun function d' _ added => ?_
  exact maintains_modifyObject fun _ grown _ h =>
    h.addMethod ⟨rfl, .inl ⟨function, Nat.lt_of_lt_of_le added grown.functions, rfl⟩⟩

theorem maintains_addNested {nested : Nat} (known : nested < d.objects.size) (name : String)
    (modifiers : Modifiers) : Maintains d (addNested id name modifiers nested) :=
  maintains_modifyObject fun _ grown _ h =>
    h.addMember ⟨rfl, .inr ⟨Nat.lt_of_lt_of_le known grown.objects, trivial⟩⟩

mutual

theorem extends_collectClass (d : Dictionary) (scope : CollectScope) : (c : Tree.ClassDecl) →
    Extends d (fun id d' => id < d'.objects.size) (collectClass scope c)
  | ⟨modifiers, name, typeParameters, extended, implemented, constructors, members, _, _, _,
      isEnum, _⟩ => by
    unfold collectClass
    have plain (d : Dictionary) (id : Nat) :
        d.CoversObject id (classObject name modifiers typeParameters isEnum) :=
      have new := Dictionary.CoversObject.new name .classType
      ⟨new.members, new.constructors, new.supertypes⟩
    refine (extends_define scope plain).bind fun id d₁ _ known => ?_
    refine (maintains_addSupertypes _ _).bind fun _ d₂ grown _ => ?_
    have known := Nat.lt_of_lt_of_le known grown.objects
    refine (maintains_addConstructors _ known constructors).bind fun _ d₃ grown _ => ?_
    have known := Nat.lt_of_lt_of_le known grown.objects
    exact (maintains_collectMembers d₃ _ id false members).bind fun _ d₄ grown _ =>
      .pure fun d₅ grown' => Nat.lt_of_lt_of_le known (grown.trans grown').objects

theorem extends_collectInterface (d : Dictionary) (scope : CollectScope) :
    (i : Tree.InterfaceDecl) →
    Extends d (fun id d' => id < d'.objects.size) (collectInterface scope i)
  | ⟨_, name, typeParameters, extended, members, _, _⟩ => by
    unfold collectInterface
    have plain (d : Dictionary) (id : Nat) : d.CoversObject id
        { ObjectType.new name .interfaceType with typeParameters := typeParameters } :=
      have new := Dictionary.CoversObject.new name .interfaceType
      ⟨new.members, new.constructors, new.supertypes⟩
    refine (extends_define scope plain).bind fun id d₁ _ known => ?_
    refine (maintains_addSupertypes _ extended).bind fun _ d₂ grown _ => ?_
    have known := Nat.lt_of_lt_of_le known grown.objects
    exact (maintains_collectMembers d₂ _ id true members).bind fun _ d₃ grown _ =>
      .pure fun d₄ grown' => Nat.lt_of_lt_of_le known (grown.trans grown').objects

theorem maintains_collectMembers (d : Dictionary) (scope : CollectScope) (id : Nat)
    (inInterface : Bool) :
    (ms : List Tree.Member) → Maintains d (collectMembers scope id inInterface ms)
  | [] => .pure fun _ _ => trivial
  | m :: ms => by
    unfold collectMembers
    exact (maintains_collectMember d scope id inInterface m).bind fun _ d' _ _ =>
      maintains_collectMembers d' scope id inInterface ms

theorem maintains_collectMember (d : Dictionary) (scope : CollectScope) (id : Nat)
    (inInterface : Bool) :
    (m : Tree.Member) → Maintains d (collectMember scope id inInterface m)
  | .field f => maintains_addField scope inInterface f
  | .method m => maintains_addMethod scope inInterface m
  | .classDecl c => by
    unfold collectMember
    exact (extends_collectClass d scope c).bind fun nested d' _ known =>
      maintains_addNested known c.name c.modifiers
  | .interfaceDecl i => by
    unfold collectMember
    exact (extends_collectInterface d scope i).bind fun nested d' _ known =>
      maintains_addNested known i.name i.modifiers

end

theorem maintains_collectItem (d : Dictionary) (item : Tree.TopLevel) :
    Maintains d (collectItem scope item) := by
  cases item with
  | importDecl i => exact .pure fun _ _ => trivial
  | classDecl c =>
    exact (extends_collectClass d scope c).bind fun _ _ _ _ => .pure fun _ _ => trivial
  | interfaceDecl i =>
    exact (extends_collectInterface d scope i).bind fun _ _ _ _ => .pure fun _ _ => trivial

end Collector

/-! ### Files -/

namespace Dictionary

/-- The dictionary of files, each with its namespace, collected in order. -/
def ofFiles (files : List (FileNamespace × SourceTree)) : Dictionary :=
  files.foldl (fun d (space, tree) => (collectDeclarations space tree d).1) .native

theorem wellFormed_native : native.WellFormed where
  object id object found := by
    have constructors : ∀ function ∈ object.constructors, function < 5 := by
      match id with
      | 0 => cases found; decide
      | 1 => cases found; decide
      | id + 2 => cases found
    have supertypes : object.supertypes = [] := by
      match id with
      | 0 => cases found; rfl
      | 1 => cases found; rfl
      | id + 2 => cases found
    have members : ∀ entry ∈ object.members.entries, entry.2.name = entry.1 ∧
        entry.2.parent = id ∧ ∃ function < 5, entry.2.constraint = .function function := by
      match id with
      | 0 => cases found; decide
      | 1 => cases found; decide
      | id + 2 => cases found
    refine ⟨fun entry mem => ?_, constructors, fun _ mem => ?_⟩
    · obtain ⟨name, parent, method⟩ := members entry mem
      exact ⟨name, parent, .inl method⟩
    · rw [supertypes] at mem
      exact absurd mem List.not_mem_nil
  function function mem := by
    have simple : ∀ function ∈ Native.functions, ∀ type ∈ function.result :: function.parameters,
        type.isSimple .string ∨ type.isSimple .number := by decide
    have data (type : Constraint) (h : type ∈ function.result :: function.parameters) :
        native.CoversData type := by
      obtain ⟨definition, isDefinition⟩ := type
      obtain string | number := simple function mem _ h
      · cases eq_of_beq string
        exact ⟨trivial, trivial⟩
      · cases eq_of_beq number
        exact ⟨trivial, trivial⟩
    exact ⟨fun parameter mem => data parameter (List.mem_cons_of_mem _ mem), data _ List.mem_cons_self⟩
  symbol entry mem := by
    have dynamic : ∀ entry ∈ native.symbols.entries, entry.2.constraint = .dynamic := by decide
    exact .inl (dynamic entry mem)

theorem WellFormed.collectDeclarations {d : Dictionary} (h : d.WellFormed) (space : FileNamespace)
    (tree : SourceTree) : (collectDeclarations space tree d).1.WellFormed :=
  (Collector.Maintains.forM tree.items (fun item d' _ => Collector.maintains_collectItem _ d' item)
    ⟨d, []⟩ h (.refl d)).1

theorem wellFormed_ofFiles (files : List (FileNamespace × SourceTree)) : (ofFiles files).WellFormed := by
  suffices ∀ d : Dictionary, d.WellFormed →
      (files.foldl (fun d (space, tree) => (Javascribe.collectDeclarations space tree d).1) d).WellFormed from
    this _ wellFormed_native
  induction files with
  | nil => exact fun _ h => h
  | cons file files ih => exact fun d h => ih _ (h.collectDeclarations file.1 file.2)

/-! ### References -/

namespace WellFormed

variable {d : Dictionary} (h : d.WellFormed)
include h

theorem coversSymbol_lookupFirst (candidates : List String) :
    d.CoversSymbol (d.lookupFirst candidates) := by
  unfold lookupFirst
  cases found : d.lookupFirst? candidates with
  | none => exact .inl rfl
  | some symbol =>
    obtain ⟨identifier, _, there⟩ := List.exists_of_findSome?_eq_some found
    exact h.symbol _ (Table.mem_of_find? there)

/-- A reference means what the symbol of its first known candidate is: no
other reference is followed. -/
theorem resolveCandidatesAt_succ (depth : Nat) (candidates : List String) :
    d.resolveCandidatesAt (depth + 1) candidates =
      (d.lookupFirst candidates).constraint.definition := by
  have covered := h.coversSymbol_lookupFirst candidates
  unfold resolveCandidatesAt
  unfold lookupFirst at covered ⊢
  cases found : d.lookupFirst? candidates with
  | none => rfl
  | some symbol =>
    rw [found] at covered
    obtain dynamic | ⟨id, _, equal⟩ := covered
    · simp only [Option.getD_some] at dynamic ⊢
      rw [dynamic]
      rfl
    · simp only [Option.getD_some] at equal ⊢
      rw [equal]
      rfl

theorem resolveCandidates_eq (candidates : List String) :
    d.resolveCandidates candidates = .simple .dynamic ∨
      ∃ id < d.objects.size, d.resolveCandidates candidates = .object id := by
  have one : d.resolveCandidates candidates = _ := h.resolveCandidatesAt_succ 63 candidates
  rw [one]
  obtain dynamic | ⟨id, known, equal⟩ := h.coversSymbol_lookupFirst candidates
  · exact .inl (by rw [dynamic]; rfl)
  · exact .inr ⟨id, known, by rw [equal]; rfl⟩

/-! ### Inheritance -/

theorem coversObject_object (id : Nat) : d.CoversObject id (d.object id) := by
  unfold Dictionary.object
  cases found : d.objects[id]? with
  | none => exact .new "" .classType
  | some object => exact h.object id object found

theorem covers_resolve {constraint : Constraint} (covered : d.Covers constraint.definition) :
    d.Covers (d.resolve constraint).definition := by
  unfold resolve
  split
  · next candidates _ =>
    obtain dynamic | ⟨id, known, equal⟩ := h.resolveCandidates_eq candidates
    · rw [dynamic]
      trivial
    · rw [equal]
      exact known
  · exact covered

theorem lt_of_mem_directSupertypes {id ancestor : Nat} (mem : ancestor ∈ d.directSupertypes id) :
    ancestor < d.objects.size := by
  obtain ⟨supertype, declared, isObject⟩ := List.mem_filterMap.mp mem
  have covered := h.covers_resolve ((h.coversObject_object id).supertypes supertype declared).1
  cases meaning : (d.resolve supertype).definition with
  | object other =>
    rw [meaning] at covered isObject
    exact Option.some.inj isObject ▸ covered
  | _ =>
    rw [meaning] at isObject
    cases isObject

theorem lt_of_mem_supertypesAbove (levels : Nat) {seen last : List Nat}
    (known : ∀ id ∈ seen, id < d.objects.size) :
    ∀ id ∈ d.supertypesAbove levels seen last, id < d.objects.size := by
  induction levels generalizing seen last with
  | zero => exact known
  | succ levels ih =>
    unfold supertypesAbove
    dsimp only
    split
    · exact known
    · refine ih fun id mem => ?_
      obtain mem | mem := List.mem_append.mp mem
      · exact known id mem
      · obtain ⟨_, _, direct⟩ := List.mem_flatMap.mp (mem_freshIds_iff.mp mem).1
        exact h.lt_of_mem_directSupertypes direct

/-- What an object of the dictionary inherits from is in the dictionary. -/
theorem lt_of_mem_ancestry {id ancestor : Nat} (known : id < d.objects.size)
    (mem : ancestor ∈ d.ancestry id) : ancestor < d.objects.size := by
  obtain rfl | mem := List.mem_cons.mp mem
  · exact known
  · exact h.lt_of_mem_supertypesAbove maxSupertypeDepth
      (fun other mem => List.mem_singleton.mp mem ▸ known) ancestor (List.mem_of_mem_tail mem)

end WellFormed

/-! ### Types inside types -/

/-- One round of naming a type, where `name` names the types inside. -/
def typeNameBy (d : Dictionary) (name : Constraint → String) (constraint : Constraint) : String :=
  match (d.resolve constraint).definition with
  | .simple type => type.name
  | .object id => (d.object id).name
  | .array element ofDefinitions => name ⟨element, ofDefinitions⟩ ++ "[]"
  | .function id =>
    "(" ++ ", ".intercalate ((d.function id).parameters.map name) ++ ") => "
      ++ name (d.function id).result
  | .unresolved _ => SimpleType.dynamic.name

theorem typeNameAt_eq_iterate (d : Dictionary) (depth : Nat) :
    d.typeNameAt depth = d.typeNameBy^[depth] fun _ => SimpleType.dynamic.name := by
  induction depth with
  | zero => rfl
  | succ depth ih =>
    rw [Function.iterate_succ_apply', ← ih]
    rfl

theorem typeNameBy_congr (d : Dictionary) {name name' : Constraint → String}
    {constraint : Constraint} (agree : ∀ i ∈ d.inner constraint, name i = name' i) :
    d.typeNameBy name constraint = d.typeNameBy name' constraint := by
  unfold inner at agree
  unfold typeNameBy
  cases meaning : (d.resolve constraint).definition with
  | array element ofDefinitions =>
    simp only [meaning] at agree ⊢
    rw [agree _ List.mem_cons_self]
  | function id =>
    simp only [meaning] at agree ⊢
    rw [agree _ List.mem_cons_self,
      List.map_congr_left fun parameter mem => agree parameter (List.mem_cons_of_mem _ mem)]
  | _ => rfl

theorem typeDepth_pos (d : Dictionary) (definition : Definition) : 0 < d.typeDepth definition := by
  cases definition <;> exact Nat.succ_pos _

/-- Where no function is inside, a type is as deep as its arrays. -/
theorem typeDepth_of_isData (d : Dictionary) {definition : Definition} (data : definition.IsData) :
    d.typeDepth definition = definition.nesting + 1 := by
  induction definition with
  | array element _ ih => exact congrArg (· + 1) (ih data)
  | function _ => exact data.elim
  | _ => rfl

theorem nesting_le_functionNesting (d : Dictionary) {id : Nat} {constraint : Constraint}
    (mem : constraint ∈ (d.function id).result :: (d.function id).parameters) :
    constraint.definition.nesting ≤ d.functionNesting id := by
  have bound (ns : List Nat) (n : Nat) (mem : n ∈ ns) : n ≤ ns.foldr max 0 := by
    induction ns with
    | nil => cases mem
    | cons first ns ih =>
      obtain rfl | mem := List.mem_cons.mp mem
      · exact Nat.le_max_left _ _
      · exact Nat.le_trans (ih mem) (Nat.le_max_right _ _)
  exact bound _ _ (List.mem_map_of_mem mem)

namespace WellFormed

variable {d : Dictionary} (h : d.WellFormed)
include h

theorem coversFunction_function (id : Nat) : d.CoversFunction (d.function id) := by
  unfold Dictionary.function
  cases found : d.functions[id]? with
  | none => exact ⟨fun _ mem => absurd mem List.not_mem_nil, trivial, trivial⟩
  | some function => exact h.function function (Array.mem_of_getElem? found)

theorem coversData_of_mem_function {id : Nat} {constraint : Constraint}
    (mem : constraint ∈ (d.function id).result :: (d.function id).parameters) :
    d.CoversData constraint := by
  obtain rfl | mem := List.mem_cons.mp mem
  · exact (h.coversFunction_function id).result
  · exact (h.coversFunction_function id).parameters constraint mem

/-- Nothing inside a covered type is out of range. -/
theorem covers_inner {constraint : Constraint} (covered : d.Covers constraint.definition) :
    ∀ i ∈ d.inner constraint, d.Covers i.definition := by
  have covered := h.covers_resolve covered
  intro i mem
  unfold inner at mem
  split at mem
  · next meaning =>
    rw [meaning] at covered
    exact List.mem_singleton.mp mem ▸ covered
  · exact (h.coversData_of_mem_function mem).1
  · exact absurd mem List.not_mem_nil

/-- A type inside a type is less deep. -/
theorem typeDepth_lt_of_mem_inner {constraint i : Constraint} (mem : i ∈ d.inner constraint) :
    d.typeDepth i.definition < d.typeDepth constraint.definition := by
  obtain ⟨definition, isDefinition⟩ := constraint
  cases definition with
  | array element ofDefinitions =>
    cases List.mem_singleton.mp mem
    exact Nat.lt_succ_self _
  | function id =>
    have le := d.nesting_le_functionNesting mem
    rw [d.typeDepth_of_isData (h.coversData_of_mem_function mem).2]
    exact Nat.succ_lt_succ (Nat.lt_succ_of_le le)
  | unresolved candidates =>
    obtain dynamic | ⟨id, _, equal⟩ := h.resolveCandidates_eq candidates
    · simp [inner, resolve, dynamic] at mem
    · simp [inner, resolve, equal] at mem
  | simple _ => cases mem
  | object _ => cases mem

/-- Naming a type ends: after as many rounds as it is deep, the name does not
depend on what the next round would give. -/
theorem typeNameBy_iterate {constraint : Constraint} {n : Nat}
    (deep : d.typeDepth constraint.definition ≤ n) (name name' : Constraint → String) :
    d.typeNameBy^[n] name constraint = d.typeNameBy^[n] name' constraint := by
  induction n generalizing constraint with
  | zero => exact absurd deep (Nat.not_le_of_lt (d.typeDepth_pos _))
  | succ n ih =>
    rw [Function.iterate_succ_apply', Function.iterate_succ_apply']
    exact d.typeNameBy_congr fun i mem =>
      ih (Nat.le_of_lt_succ (Nat.lt_of_lt_of_le (h.typeDepth_lt_of_mem_inner mem) deep))

/-- Comparing types ends after as many rounds as the source is deep. -/
theorem fitsBy_iterate {source target : Constraint} {n : Nat}
    (deep : d.typeDepth source.definition ≤ n) (matching matching' : Constraint → Constraint → Bool) :
    d.fitsBy^[n] matching source target = d.fitsBy^[n] matching' source target := by
  induction n generalizing source target with
  | zero => exact absurd deep (Nat.not_le_of_lt (d.typeDepth_pos _))
  | succ n ih =>
    rw [Function.iterate_succ_apply', Function.iterate_succ_apply']
    exact d.fitsBy_congr fun s mem _ _ =>
      ih (Nat.le_of_lt_succ (Nat.lt_of_lt_of_le (h.typeDepth_lt_of_mem_inner mem) deep))

theorem typeName_eq_iterate {constraint : Constraint} {n : Nat}
    (deep : d.typeDepth constraint.definition ≤ n) (name : Constraint → String) :
    d.typeName constraint = d.typeNameBy^[n] name constraint := by
  have reached (more : Nat) (name : Constraint → String) :
      d.typeNameBy^[d.typeDepth constraint.definition + more] name constraint =
        d.typeNameBy^[d.typeDepth constraint.definition] name constraint := by
    rw [Function.iterate_add_apply]
    exact h.typeNameBy_iterate (Nat.le_refl _) _ _
  obtain ⟨more, rfl⟩ := Nat.exists_eq_add_of_le deep
  rw [typeName, typeNameAt_eq_iterate, typeReach, reached, reached]
  exact h.typeNameBy_iterate (Nat.le_refl _) _ _

theorem fits_eq_iterate {source target : Constraint} {n : Nat}
    (deep : d.typeDepth source.definition ≤ n) (matching : Constraint → Constraint → Bool) :
    d.fits source target = d.fitsBy^[n] matching source target := by
  have reached (more : Nat) (matching : Constraint → Constraint → Bool) :
      d.fitsBy^[d.typeDepth source.definition + more] matching source target =
        d.fitsBy^[d.typeDepth source.definition] matching source target := by
    rw [Function.iterate_add_apply]
    exact h.fitsBy_iterate (Nat.le_refl _) _ _
  obtain ⟨more, rfl⟩ := Nat.exists_eq_add_of_le deep
  rw [fits_eq_fitsAt (Nat.le_add_left _ _), fitsAt_eq_iterate, reached, reached]
  exact h.fitsBy_iterate (Nat.le_refl _) _ _

end WellFormed

end Dictionary
end Javascribe

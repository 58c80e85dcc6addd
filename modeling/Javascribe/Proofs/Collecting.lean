/-
# What a file adds to a dictionary

Collecting a file never looks at what the dictionary holds. What it adds is
the block of declarations that it would add to an empty dictionary, numbered
behind the object types and functions that are there
(`collectDeclarations_eq`). A block mentions only its own numbers: two ways
of renaming that number it alike give the same block (`Collection.IsOwn`).

Key definitions: `Dictionary.Numbers`, `Collection.behind`,
`Collector.PlacesFrom`, `SourceTree.declarations`, `Dictionary.append`.
Key theorems: `Collector.places_collectClass`, `collectDeclarations_eq`,
`SourceTree.declarations_isOwn`.
-/
import Javascribe.Proofs.CheckerRenaming

namespace Javascribe

/-! ### Changes of object types and renaming -/

section Changes

variable (τ : Renaming) (object : ObjectType)

@[simp]
theorem rename_erase {α κ : Type} [Renamable α] [BEq κ] (table : Table κ α) (key : κ) :
    rename τ (table.erase key) = (rename τ table).erase key := by
  obtain ⟨entries⟩ := table
  show Table.mk (List.map _ (entries.filter _)) = ⟨(entries.map _).filter _⟩
  rw [List.filter_map]
  rfl

theorem rename_addMember (member : ObjectMember) :
    rename τ (object.addMember member) = (rename τ object).addMember (rename τ member) := by
  show { rename τ object with members := rename τ (object.members.insert member.name member) } = _
  rw [rename_insert]
  rfl

theorem rename_renameFirst (name : String) (first : ObjectMember) :
    rename τ (object.renameFirst name first) =
      (rename τ object).renameFirst name (rename τ first) := by
  have members := rename_insert τ (object.members.erase name) (overloadName name 0)
    { first with name := overloadName name 0 }
  rw [rename_erase] at members
  exact congrArg (fun members => { rename τ object with
    members := members
    overloads := object.overloads.insert name [overloadName name 0] }) members

theorem rename_addOverload (member : ObjectMember) :
    rename τ (object.addOverload member).1 =
      ((rename τ object).addOverload (rename τ member)).1 := by
  let names := (object.overloads.find? member.name).getD []
  let stored := overloadName member.name names.length
  have members := rename_insert τ object.members stored { member with name := stored }
  exact congrArg (fun members => { rename τ object with
    members := members
    overloads := object.overloads.insert member.name (names ++ [stored]) }) members

theorem rename_addMethod (member : ObjectMember) :
    rename τ (object.addMethod member).1 = ((rename τ object).addMethod (rename τ member)).1 := by
  have first : ((rename τ object).members.find? member.name).filter (·.isMethod) =
      rename τ ((object.members.find? member.name).filter (·.isMethod)) := by
    show ((rename τ object.members).find? member.name).filter (·.isMethod) = _
    rw [find?_rename]
    cases object.members.find? member.name with
    | none => rfl
    | some first =>
      rw [rename_some, Option.filter_some, Option.filter_some, isMethod_rename]
      split <;> rfl
  have known : (rename τ object).overloads.contains member.name =
      object.overloads.contains member.name := rfl
  have name : (rename τ member).name = member.name := rfl
  unfold ObjectType.addMethod
  rw [name, first, known]
  cases (object.members.find? member.name).filter (·.isMethod) with
  | some first => exact (rename_addOverload τ _ member).trans (by rw [rename_renameFirst]; rfl)
  | none =>
    simp only [rename_none]
    split
    · exact rename_addOverload τ object member
    · exact rename_addMember τ object member

theorem rename_addConstructor (id : Nat) :
    rename τ (object.addConstructor id) = (rename τ object).addConstructor (τ.function id) := by
  show { rename τ object with constructors := (object.constructors ++ [id]).map τ.function } = _
  rw [List.map_append]
  rfl

theorem rename_addSupertype (supertype : Constraint) :
    rename τ (object.addSupertype supertype) =
      (rename τ object).addSupertype (rename τ supertype) := by
  show { rename τ object with supertypes := (object.supertypes ++ [supertype]).map (rename τ) } = _
  rw [List.map_append]
  rfl

end Changes

/-! ### Numbers behind those of a dictionary -/

/-- The renaming numbers what a second dictionary holds behind what the first holds. -/
structure Dictionary.Numbers (d : Dictionary) (τ : Renaming) (block : Dictionary) : Prop where
  object (id : Nat) : id < block.objects.size → τ.object id = d.objects.size + id
  function (id : Nat) : id < block.functions.size → τ.function id = d.functions.size + id

theorem Dictionary.Numbers.mono {d block block' : Dictionary} {τ : Renaming}
    (h : d.Numbers τ block') (objects : block.objects.size ≤ block'.objects.size)
    (functions : block.functions.size ≤ block'.functions.size) : d.Numbers τ block :=
  ⟨fun id lt => h.object id (Nat.lt_of_lt_of_le lt objects),
    fun id lt => h.function id (Nat.lt_of_lt_of_le lt functions)⟩

/-- What has been collected, renamed and added to a dictionary. -/
def Collection.behind (τ : Renaming) (d : Dictionary) (block : Collection) : Collection where
  dictionary :=
    { (rename τ block.defined).foldl Dictionary.addSymbol d with
      objects := d.objects ++ block.dictionary.objects.map (rename τ)
      functions := d.functions ++ block.dictionary.functions.map (rename τ) }
  defined := rename τ block.defined

namespace Collector

variable {α β : Type} (d : Dictionary) (τ : Renaming)

/-- Where the first `n` object types are there, the second collector does to a
dictionary with the block behind it what the first does to the block, and
gives the same up to `v`. Nothing is taken away. -/
def PlacesFrom (n : Nat) (v : α → β) (m : Collector α) (m' : Collector β) : Prop :=
  ∀ block : Collection, n ≤ block.dictionary.objects.size →
    block.dictionary.objects.size ≤ (m.run block).2.dictionary.objects.size ∧
    block.dictionary.functions.size ≤ (m.run block).2.dictionary.functions.size ∧
    (d.Numbers τ (m.run block).2.dictionary →
      m'.run (block.behind τ d) = (v (m.run block).1, (m.run block).2.behind τ d))

variable {d τ} {n : Nat}

theorem PlacesFrom.mono {v : α → β} {m : Collector α} {m' : Collector β} {k : Nat}
    (h : PlacesFrom d τ n v m m') (le : n ≤ k) : PlacesFrom d τ k v m m' :=
  fun block hSize => h block (Nat.le_trans le hSize)

theorem PlacesFrom.bind {γ δ : Type} {v : α → β} {w : γ → δ} {m : Collector α} {m' : Collector β}
    {f : α → Collector γ} {f' : β → Collector δ} (hm : PlacesFrom d τ n v m m')
    (hf : ∀ a, PlacesFrom d τ n w (f a) (f' (v a))) : PlacesFrom d τ n w (m >>= f) (m' >>= f') := by
  intro block hSize
  obtain ⟨objects, functions, run⟩ := hm block hSize
  obtain ⟨objects', functions', run'⟩ := hf (m.run block).1 (m.run block).2
    (Nat.le_trans hSize objects)
  refine ⟨Nat.le_trans objects objects', Nat.le_trans functions functions', fun numbers => ?_⟩
  have first := run (numbers.mono objects' functions')
  show (f' (m'.run (block.behind τ d)).1).run (m'.run (block.behind τ d)).2 = _
  rw [first]
  exact run' numbers

theorem PlacesFrom.pure {v : α → β} (a : α) :
    PlacesFrom d τ n v (pure a : Collector α) (pure (v a)) :=
  fun _ _ => ⟨Nat.le_refl _, Nat.le_refl _, fun _ => rfl⟩

theorem PlacesFrom.discard {v : α → β} {m : Collector α} {m' : Collector β}
    (h : PlacesFrom d τ n v m m') : PlacesFrom d τ n (rename τ) (discard m) (discard m') := by
  intro block hSize
  obtain ⟨objects, functions, run⟩ := h block hSize
  refine ⟨objects, functions, fun numbers => ?_⟩
  show (PUnit.unit, (m'.run (block.behind τ d)).2) = _
  rw [run numbers]
  rfl

theorem PlacesFrom.forM {γ : Type} {f f' : γ → Collector PUnit}
    (hf : ∀ x, PlacesFrom d τ n id (f x) (f' x)) (xs : List γ) :
    PlacesFrom d τ n id (xs.forM f) (xs.forM f') := by
  induction xs with
  | nil => exact .pure _
  | cons x xs ih => exact (hf x).bind fun _ => ih

/-! ### Single steps -/

theorem places_addFunction (function : FunctionType) :
    PlacesFrom d τ n τ.function (addFunction function) (addFunction (rename τ function)) := by
  intro block _
  have run : (addFunction function).run block = (block.dictionary.functions.size,
      { block with dictionary := (block.dictionary.addFunction function).1 }) := rfl
  rw [run]
  refine ⟨Nat.le_refl _, ?_, fun numbers => ?_⟩
  · simp [Dictionary.addFunction]
  · have number := numbers.function block.dictionary.functions.size (by simp [Dictionary.addFunction])
    show ((d.functions ++ block.dictionary.functions.map (rename τ)).size,
      Collection.mk { (block.behind τ d).dictionary with functions := Array.push _ _ } _) = _
    rw [number, Array.size_append, Array.size_map]
    simp only [Collection.behind, Dictionary.addFunction, Array.map_push, Array.append_push]

theorem modify_behind {α β : Type} (before : Array β) (block : Array α) (r : α → β) (id : Nat)
    {change : α → α} {change' : β → β} (h : ∀ a, change' (r a) = r (change a)) :
    (before ++ block.map r).modify (before.size + id) change' =
      before ++ (block.modify id change).map r := by
  apply Array.ext_getElem?
  intro i
  simp only [Array.getElem?_modify, Array.getElem?_append, Array.getElem?_map]
  by_cases hi : i < before.size
  · have ne : before.size + id ≠ i := by omega
    simp [hi, ne]
  · by_cases hId : before.size + id = i
    · subst hId
      rw [if_neg hi, if_neg hi]
      simp [Function.comp_def, h]
    · have ne : id ≠ i - before.size := by omega
      simp [hi, hId, ne]

theorem places_modifyObject {id : Nat} {change change' : ObjectType → ObjectType} (known : id < n)
    (h : ∀ object, change' (rename τ object) = rename τ (change object)) :
    PlacesFrom d τ n (rename τ) (modifyObject id change) (modifyObject (τ.object id) change') := by
  intro block hSize
  have run : (modifyObject id change).run block =
      (PUnit.unit, { block with dictionary := block.dictionary.modifyObject id change }) := rfl
  rw [run]
  refine ⟨?_, Nat.le_refl _, fun numbers => ?_⟩
  · simp [Dictionary.modifyObject]
  · have number := numbers.object id (by simpa [Dictionary.modifyObject] using Nat.lt_of_lt_of_le known hSize)
    show (PUnit.unit, Collection.mk { (block.behind τ d).dictionary with
      objects := Array.modify _ (τ.object id) change' } _) = _
    rw [number]
    show (PUnit.unit, Collection.mk { (block.behind τ d).dictionary with
      objects := (d.objects ++ block.dictionary.objects.map (rename τ)).modify _ _ } _) = _
    rw [modify_behind _ _ _ _ h]
    rfl

/-- What is defined is there from then on. -/
theorem PlacesFrom.define_bind {scope : CollectScope} {object : ObjectType}
    {rest : Nat → Collector α} {rest' : Nat → Collector β} {v : α → β}
    (plain : rename τ object = object)
    (hRest : ∀ id, PlacesFrom d τ (id + 1) v (rest id) (rest' (τ.object id))) :
    PlacesFrom d τ n v (define scope object >>= rest) (define scope object >>= rest') := by
  intro block hSize
  let id := block.dictionary.objects.size
  let symbol : Symbol :=
    ⟨scope.space.identifier scope.enclosing object.name, object.name, .objectType id⟩
  let next : Collection :=
    ⟨(block.dictionary.addObject object).1.addSymbol symbol, block.defined ++ [symbol]⟩
  have grown : next.dictionary.objects.size = id + 1 := by
    simp [next, id, Dictionary.addObject, Dictionary.addSymbol]
  have run : (define scope object >>= rest).run block = (rest id).run next := rfl
  obtain ⟨objects, functions, after⟩ := hRest id next (Nat.le_of_eq grown.symm)
  rw [run]
  refine ⟨?_, functions, fun numbers => ?_⟩
  · omega
  · have number := numbers.object id (by omega)
    have placed : next.behind τ d =
        ⟨((block.behind τ d).dictionary.addObject object).1.addSymbol (rename τ symbol),
          rename τ block.defined ++ [rename τ symbol]⟩ := by
      have defined : rename τ next.defined = rename τ block.defined ++ [rename τ symbol] :=
        List.map_append
      simp only [Collection.behind, defined, List.foldl_append, List.foldl_cons, List.foldl_nil,
        next, Dictionary.addObject, Dictionary.addSymbol, Array.map_push, plain,
        Array.append_push]
    have there : (block.behind τ d).dictionary.objects.size = τ.object id := by
      simp [Collection.behind, number, id]
    have renamed : rename τ symbol =
        ⟨scope.space.identifier scope.enclosing object.name, object.name,
          .objectType (block.behind τ d).dictionary.objects.size⟩ := by
      rw [there]
      rfl
    rw [← after numbers, placed, renamed, ← there]
    rfl

/-! ### Declarations -/

variable {scope : CollectScope}

theorem rename_constraint_scope (scope : CollectScope) (type : TypeRef) :
    rename τ (scope.constraint type) = scope.constraint type :=
  rename_constraint τ scope.space scope.enclosing scope.generics type

theorem rename_parameter (scope : CollectScope) (parameter : Tree.Variable) :
    rename τ (scope.parameter parameter) = scope.parameter parameter := by
  unfold CollectScope.parameter
  split
  · rw [rename_arrayOf, rename_constraint_scope]
  · exact rename_constraint_scope scope parameter.type

theorem rename_functionType (scope : CollectScope) (method : Tree.Method) (result : Constraint) :
    rename τ (scope.functionType method result) = scope.functionType method (rename τ result) := by
  have parameters : rename τ (method.parameters.map scope.parameter) =
      method.parameters.map scope.parameter := by
    rw [rename_list, List.map_map]
    exact List.map_congr_left fun parameter _ => rename_parameter scope parameter
  unfold CollectScope.functionType
  simp only [Renamable.rename] at parameters ⊢
  simp only [parameters]

theorem rename_methodType (scope : CollectScope) (method : Tree.Method) :
    rename τ (scope.methodType method) = scope.methodType method := by
  unfold CollectScope.methodType
  rw [rename_functionType]
  congr 1
  cases method.type with
  | none => rfl
  | some type => exact rename_constraint_scope _ type

theorem places_addSupertypes {id : Nat} (known : id < n) (types : List TypeRef) :
    PlacesFrom d τ n (rename τ) (addSupertypes scope id types)
      (addSupertypes scope (τ.object id) types) :=
  .forM (fun type => places_modifyObject known fun object => by
    rw [rename_addSupertype, rename_constraint_scope]) types

theorem places_addConstructors {id : Nat} (known : id < n) (constructors : List Tree.Method) :
    PlacesFrom d τ n (rename τ) (addConstructors scope id constructors)
      (addConstructors scope (τ.object id) constructors) := by
  refine .forM (fun method => ?_) constructors
  have function := places_addFunction (d := d) (τ := τ) (n := n) (scope.functionType method (.object id))
  rw [rename_functionType] at function
  exact function.bind fun function => places_modifyObject known fun object =>
    (rename_addConstructor τ object function).symm

theorem places_addField {id : Nat} (known : id < n) (inInterface : Bool) (field : Tree.Field) :
    PlacesFrom d τ n (rename τ) (addField scope id inInterface field)
      (addField scope (τ.object id) inInterface field) := by
  refine places_modifyObject known fun object => ?_
  have type := rename_constraint_scope (τ := τ) scope field.type
  rw [rename_addMember]
  congr 1
  simp only [Renamable.rename, ObjectMember.withModifiers] at type ⊢
  rw [type]

theorem places_addMethod {id : Nat} (known : id < n) (inInterface : Bool) (method : Tree.Method) :
    PlacesFrom d τ n (rename τ) (addMethod scope id inInterface method)
      (addMethod scope (τ.object id) inInterface method) := by
  have function := places_addFunction (d := d) (τ := τ) (n := n) (scope.methodType method)
  rw [rename_methodType] at function
  refine function.bind fun function => places_modifyObject known fun object => ?_
  rw [rename_addMethod]
  rfl

theorem places_addNested {id nested : Nat} (known : id < n) (name : String)
    (modifiers : Modifiers) :
    PlacesFrom d τ n (rename τ) (addNested id name modifiers nested)
      (addNested (τ.object id) name modifiers (τ.object nested)) := by
  refine places_modifyObject known fun object => ?_
  rw [rename_addMember]
  rfl

mutual

theorem places_collectClass (scope : CollectScope) : (c : Tree.ClassDecl) →
    PlacesFrom d τ 0 τ.object (collectClass scope c) (collectClass scope c)
  | ⟨modifiers, name, typeParameters, extended, implemented, constructors, members, _, _, _,
      isEnum, _⟩ => by
    unfold collectClass
    refine PlacesFrom.define_bind rfl fun id => ?_
    have known : id < id + 1 := id.lt_succ_self
    refine (places_addSupertypes known _).bind fun _ => ?_
    refine (places_addConstructors known constructors).bind fun _ => ?_
    exact (places_collectMembers _ id false members).bind fun _ => .pure id

theorem places_collectInterface (scope : CollectScope) : (i : Tree.InterfaceDecl) →
    PlacesFrom d τ 0 τ.object (collectInterface scope i) (collectInterface scope i)
  | ⟨_, name, typeParameters, extended, members, _, _⟩ => by
    unfold collectInterface
    refine PlacesFrom.define_bind rfl fun id => ?_
    refine (places_addSupertypes id.lt_succ_self extended).bind fun _ => ?_
    exact (places_collectMembers _ id true members).bind fun _ => .pure id

theorem places_collectMembers (scope : CollectScope) (id : Nat) (inInterface : Bool) :
    (ms : List Tree.Member) →
      PlacesFrom d τ (id + 1) (rename τ) (collectMembers scope id inInterface ms)
        (collectMembers scope (τ.object id) inInterface ms)
  | [] => .pure ()
  | m :: ms => by
    unfold collectMembers
    exact (places_collectMember scope id inInterface m).bind fun _ =>
      places_collectMembers scope id inInterface ms

theorem places_collectMember (scope : CollectScope) (id : Nat) (inInterface : Bool) :
    (m : Tree.Member) →
      PlacesFrom d τ (id + 1) (rename τ) (collectMember scope id inInterface m)
        (collectMember scope (τ.object id) inInterface m)
  | .field f => places_addField id.lt_succ_self inInterface f
  | .method m => places_addMethod id.lt_succ_self inInterface m
  | .classDecl c => by
    unfold collectMember
    exact ((places_collectClass scope c).mono (Nat.zero_le _)).bind fun nested =>
      places_addNested id.lt_succ_self c.name c.modifiers
  | .interfaceDecl i => by
    unfold collectMember
    exact ((places_collectInterface scope i).mono (Nat.zero_le _)).bind fun nested =>
      places_addNested id.lt_succ_self i.name i.modifiers

end

theorem places_collectItem (scope : CollectScope) (item : Tree.TopLevel) :
    PlacesFrom d τ 0 (rename τ) (collectItem scope item) (collectItem scope item) := by
  cases item with
  | importDecl i => exact .pure ()
  | classDecl c => exact (places_collectClass scope c).discard
  | interfaceDecl i => exact (places_collectInterface scope i).discard

end Collector

/-! ### Files -/

/-- What a file adds to an empty dictionary. -/
def SourceTree.declarations (tree : SourceTree) (name : String) : Collection :=
  ((tree.items.forM (Collector.collectItem ⟨.ofTree name tree, [], []⟩)).run ⟨.empty, []⟩).2

/-- The numbers behind those of a dictionary. -/
def Dictionary.numbering (d : Dictionary) : Renaming :=
  ⟨(d.objects.size + ·), (d.functions.size + ·)⟩

theorem Dictionary.numbers_numbering (d block : Dictionary) : d.Numbers d.numbering block :=
  ⟨fun _ _ => rfl, fun _ _ => rfl⟩

/-- The dictionary with a block of declarations behind it. -/
def Dictionary.append (d : Dictionary) (block : Collection) : Dictionary :=
  (block.behind d.numbering d).dictionary

/-- A block mentions only numbers of its own: ways of renaming that number
what it holds alike give the same block. -/
def Collection.IsOwn (block : Collection) : Prop :=
  ∀ d τ, d.Numbers τ block.dictionary → block.behind τ d = block.behind d.numbering d

theorem SourceTree.collect_behind (tree : SourceTree) (name : String) {d : Dictionary}
    {τ : Renaming} (numbers : d.Numbers τ (tree.declarations name).dictionary) :
    ((tree.items.forM (Collector.collectItem ⟨.ofTree name tree, [], []⟩)).run ⟨d, []⟩).2 =
      (tree.declarations name).behind τ d := by
  have places := Collector.PlacesFrom.forM (d := d) (τ := τ) (n := 0)
    (Collector.places_collectItem ⟨.ofTree name tree, [], []⟩) tree.items ⟨.empty, []⟩ (Nat.zero_le _)
  have run := places.2.2 numbers
  have start : Collection.behind τ d ⟨.empty, []⟩ = ⟨d, []⟩ := by
    simp [Collection.behind, Dictionary.empty, rename_list]
  rw [start] at run
  exact congrArg Prod.snd run

/-- Collecting a file puts its block behind what is there. -/
theorem collectDeclarations_eq (tree : SourceTree) (name : String) (d : Dictionary) :
    (collectDeclarations (.ofTree name tree) tree d).1 = d.append (tree.declarations name) :=
  congrArg Collection.dictionary (tree.collect_behind name (d.numbers_numbering _))

theorem SourceTree.declarations_isOwn (tree : SourceTree) (name : String) :
    (tree.declarations name).IsOwn := fun d _ numbers =>
  (tree.collect_behind name numbers).symm.trans
    (tree.collect_behind name (d.numbers_numbering _))

end Javascribe

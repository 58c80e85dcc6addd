/-
# Overriding and overloads

A method overrides another by being stored under the same name. The stored
name depends on how many methods of the name the type itself declares, and
a call looks for the overloads of the nearest type that has some before it
looks for a method. So a method that stands alone in its type is hidden from
calls by the overloads that the type inherits, and it overrides none of them
(`Dictionary.overriding_iff`).

Key definitions: `TypeBody.methods`, `TypeBody.KeepsApart`,
`TypeBody.storedName`.
Key theorems: `Dictionary.Holds.stores`, `Dictionary.found_own_iff`,
`Dictionary.overriding_iff`.
-/
import Javascribe.Proofs.Declarations
import Javascribe.Typing.Overload

namespace Javascribe

/-! ### Names of overloads -/

namespace ObjectType

/-- What is kept as overloads of a name has the names of overloads. -/
def NamesOverloads (object : ObjectType) : Prop :=
  ∀ name names, object.overloads? name = some names → ∀ stored ∈ names, ∃ i, stored = overloadName name i

variable {object : ObjectType}

theorem NamesOverloads.renameFirst (h : object.NamesOverloads) (name : String)
    (first : ObjectMember) : (object.renameFirst name first).NamesOverloads := by
  intro other names found
  rw [overloads?_renameFirst] at found
  split at found
  · next same =>
    subst same
    obtain rfl := Option.some.inj found
    exact List.forall_mem_singleton.mpr ⟨0, rfl⟩
  · exact h other names found

theorem NamesOverloads.addOverload (h : object.NamesOverloads) (member : ObjectMember) :
    (object.addOverload member).1.NamesOverloads := by
  intro other names found
  rw [overloads?, ObjectType.addOverload, Table.find?_insert] at found
  split at found
  · next same =>
    subst same
    obtain rfl := Option.some.inj found
    refine List.forall_mem_append.mpr ⟨?_, List.forall_mem_singleton.mpr ⟨_, rfl⟩⟩
    cases before : object.overloads.find? member.name with
    | none => exact fun _ mem => absurd mem List.not_mem_nil
    | some names => exact h member.name names before
  · exact h other names found

theorem NamesOverloads.declareAll (h : object.NamesOverloads) (members : List ObjectMember) :
    (object.declareAll members).NamesOverloads := by
  induction members generalizing object with
  | nil => exact h
  | cons member members ih =>
    refine ih ?_
    unfold ObjectType.declare ObjectType.addMethod
    split
    · split
      · exact (h.renameFirst _ _).addOverload member
      · split
        · exact h.addOverload member
        · exact h
    · exact h

end ObjectType

namespace Dictionary

theorem namesOverloads_ofFiles (files : List (FileNamespace × SourceTree)) (id : Nat) :
    ((ofFiles files).object id).NamesOverloads := by
  have none {object : ObjectType} (h : object.overloads.entries = []) : object.NamesOverloads := by
    intro name names found
    rw [ObjectType.overloads?, Table.find?, h] at found
    cases found
  have adds := addsTypes_ofFiles files
  have natives : ∀ object ∈ native.objects.toList, object.overloads.entries = [] := by decide
  by_cases isNative : id < native.objects.size
  · have found := adds.follows.objects id native.objects[id] (Nat.ne_of_lt isNative)
      (Array.getElem?_eq_getElem isNative)
    rw [object, found, Option.getD_some]
    exact none (natives _ (Array.mem_toList_iff.mpr (Array.getElem_mem isNative)))
  · cases hBody : (typeBodies files)[id - native.objects.size]? with
    | some body =>
      obtain ⟨base, members, found, _, _, noOverloads, _⟩ := adds.holds _ body hBody
      rw [Nat.add_sub_cancel' (Nat.not_lt.mp isNative)] at found
      rw [object, found, Option.getD_some]
      exact (none (by rw [noOverloads]; rfl) : base.NamesOverloads).declareAll members
    | none =>
      have size := adds.size_eq
      rw [List.getElem?_eq_none_iff] at hBody
      rw [object, Array.getElem?_eq_none (by omega), Option.getD_none]
      exact none rfl

end Dictionary

/-! ### The methods of a body -/

namespace TypeBody

/-- The methods called `name`, in order. -/
def methods (body : TypeBody) (name : String) : List Tree.Method :=
  (body.members.filterMap (·.method?)).filter (·.name == name)

/-- The name under which method number `i` called `name` is stored. -/
def storedName (body : TypeBody) (name : String) (i : Nat) : String :=
  placeName name (body.methods name).length i

/-- No other member takes a name of the methods called `name`, and they take
no name of another's overloads. -/
structure KeepsApart (body : TypeBody) (name : String) : Prop where
  ne_overloadName : ∀ m ∈ body.members, ∀ i, m.name ≠ overloadName name i
  overloadName_ne : ∀ m ∈ body.members, m.method?.isSome = true → ∀ i, overloadName m.name i ≠ name
  data_ne : ∀ m ∈ body.members, m.method? = none → m.name ≠ name

end TypeBody

namespace Dictionary

variable {d : Dictionary} {id : Nat} {body : TypeBody} {name : String}

theorem Declares.isMethod {scope : CollectScope} {declaration : Tree.Member}
    {member : ObjectMember} (h : d.Declares scope id declaration member) :
    member.isMethod = declaration.method?.isSome := by
  have means := h.means
  rw [ObjectMember.isMethod]
  cases declaration with
  | field f =>
    rw [show member.constraint = scope.constraint f.type from means]
    exact Collector.isFunction_constraint scope f.type
  | method m =>
    obtain ⟨_, equal, _⟩ := means
    rw [equal]
    rfl
  | classDecl c =>
    obtain ⟨_, equal, _⟩ := means
    rw [equal]
    rfl
  | interfaceDecl i =>
    obtain ⟨_, equal, _⟩ := means
    rw [equal]
    rfl

theorem forall₂_methods {scope : CollectScope} {declarations : List Tree.Member}
    {members : List ObjectMember}
    (h : List.Forall₂ (d.Declares scope id) declarations members) (name : String) :
    List.Forall₂ (fun method => d.Declares scope id (.method method))
      ((declarations.filterMap (·.method?)).filter (·.name == name))
      (members.filter fun m => m.isMethod && m.name == name) := by
  induction h with
  | nil => exact .nil
  | @cons declaration member declarations members declared _ ih =>
    have isMethod := declared.isMethod
    have name_eq := declared.name_eq
    rw [List.filterMap_cons, List.filter_cons (x := member), isMethod]
    cases declaration with
    | method m =>
      rw [show member.name = m.name from name_eq]
      simp only [Tree.Member.method?, Option.isSome_some, Bool.true_and, List.filter_cons]
      split
      · exact .cons declared ih
      · exact ih
    | _ => exact ih

/-- The methods of a name that a body declares are stored in order. -/
theorem Holds.stores (h : d.Holds id body) (apart : body.KeepsApart name) :
    ∃ methods, (d.object id).Stores name methods ∧
      List.Forall₂ (fun method => d.Declares body.scope id (.method method))
        (body.methods name) methods := by
  obtain ⟨base, members, found, _, noMembers, noOverloads, declared, _⟩ := h
  refine ⟨_, ?_, forall₂_methods declared name⟩
  rw [object, found, Option.getD_some]
  refine (ObjectType.stores_nil noMembers noOverloads name).declareAll fun member mem => ?_
  obtain ⟨i, hi, rfl⟩ := List.getElem_of_mem mem
  have hi' : i < body.members.length := by rwa [declared.length_eq]
  have hm := List.getElem_mem hi'
  have declared := declared.get hi' hi
  rw [List.get_eq_getElem, List.get_eq_getElem] at declared
  constructor
  · rw [declared.name_eq]
    exact apart.ne_overloadName _ hm
  · rw [declared.name_eq, declared.isMethod]
    exact apart.overloadName_ne _ hm
  · rw [declared.name_eq, declared.isMethod, Option.isSome_eq_false_iff, Option.isNone_iff_eq_none]
    exact apart.data_ne _ hm

/-! ### Calls -/

theorem member?_of_ownMember? {key : String} {member : ObjectMember}
    (h : (d.object id).ownMember? key = some member) : d.member? id key = some member := by
  rw [member?, ancestry, List.findSome?_cons, h]

theorem overloads?_of_own {names : List String} (h : (d.object id).overloads? name = some names) :
    d.overloads? id name = some names := by
  rw [overloads?, ancestry, List.findSome?_cons, h]

/-- A declared method is called if it accepts the arguments. -/
theorem callMember?_of_declares {scope : CollectScope} {method : Tree.Method}
    {member : ObjectMember} (h : d.Declares scope id (.method method) member) (stored : String)
    (arguments : List Constraint) :
    d.callMember? stored { member with name := stored } arguments =
      if d.accepts (scope.methodType method) arguments then
        some ⟨stored, { member with name := stored }, (scope.methodType method).result⟩
      else none := by
  obtain ⟨k, equal, found⟩ := h.means
  have function_eq : d.function k = scope.methodType method := by
    rw [function, found, Option.getD_some]
  unfold callMember?
  rw [equal]
  simp only [resolve, Constraint.function, function_eq]

theorem member_eq_of_callMember? {stored : String} {member : ObjectMember}
    {arguments : List Constraint} {m : MethodMatch}
    (h : d.callMember? stored member arguments = some m) : m.member = member := by
  unfold callMember? at h
  dsimp only at h
  split at h
  · split at h
    · cases h
      rfl
    · cases h
  · cases h
    rfl
  · cases h

variable {methods : List ObjectMember} {arguments : List Constraint}
  (stores : (d.object id).Stores name methods)
  (declared : List.Forall₂ (fun method => d.Declares body.scope id (.method method))
    (body.methods name) methods)
include stores

/-- Inherited overloads hide a method that is alone. -/
theorem parent_ne_of_inherited (wellFormed : d.WellFormed)
    (names : ∀ s, (d.object s).NamesOverloads) (few : methods.length < 2)
    (inherited : ∃ s ∈ d.allSupertypes id, (d.object s).overloads? name ≠ none) {m : MethodMatch}
    (found : d.method id name arguments = .found m) : m.member.parent ≠ id := by
  have alone : decide (2 ≤ methods.length) = false := decide_eq_false (Nat.not_le.mpr few)
  have noOverloads := stores.overloads?_name
  have noMember := stores.ownMember?_overloadName
  simp only [alone, Bool.false_eq_true, if_false] at noOverloads noMember
  have inherits : d.overloads? id name =
      (d.allSupertypes id).findSome? fun s => (d.object s).overloads? name := by
    rw [overloads?, ancestry, List.findSome?_cons, noOverloads]
  rw [method, inherits] at found
  cases overloads : (d.allSupertypes id).findSome? fun s => (d.object s).overloads? name with
  | none =>
    obtain ⟨s, mem, some⟩ := inherited
    exact absurd (List.findSome?_eq_none_iff.mp overloads s mem) some
  | some stored =>
    obtain ⟨s, _, overloads'⟩ := List.exists_of_findSome?_eq_some overloads
    rw [overloads] at found
    dsimp only at found
    cases called : d.firstOverload? id arguments stored with
    | none =>
      rw [called] at found
      cases found
    | some chosen =>
      rw [called] at found
      cases found
      -- the name of an overload is not one of an own member, so a supertype has the member
      obtain ⟨key, mem, called⟩ := List.exists_of_findSome?_eq_some called
      obtain ⟨i, rfl⟩ := names s name stored overloads' key mem
      obtain ⟨member, there, called⟩ := Option.bind_eq_some_iff.mp called
      rw [member?, ancestry, List.findSome?_cons, noMember] at there
      obtain ⟨ancestor, isSupertype, own⟩ := List.exists_of_findSome?_eq_some there
      have covered := (wellFormed.coversObject_object ancestor).members _ (Table.mem_of_find? own)
      rw [member_eq_of_callMember? called, covered.2.parent]
      rintro rfl
      exact d.notMem_allSupertypes _ isSupertype

include declared

/-- Among overloads of its own an object finds the one it calls. -/
theorem exists_found_of_overloads (many : 2 ≤ methods.length)
    (accepted : ∃ method ∈ body.methods name,
      d.accepts (body.scope.methodType method) arguments = true) :
    ∃ m, d.method id name arguments = .found m ∧ m.member.parent = id := by
  have overloads := stores.overloads?_name
  have own := stores.ownMember?_overloadName
  simp only [decide_eq_true many, if_true] at overloads own
  have length := declared.length_eq
  have call {i : Nat} (hi : i < methods.length) (hi' : i < (body.methods name).length) :
      (d.member? id (overloadName name i)).bind
          (d.callMember? (overloadName name i) · arguments) =
        if d.accepts (body.scope.methodType (body.methods name)[i]) arguments then
          some ⟨overloadName name i, { methods[i] with name := overloadName name i },
            (body.scope.methodType (body.methods name)[i]).result⟩
        else none := by
    have found := own i
    rw [List.getElem?_eq_getElem hi, Option.map_some] at found
    rw [member?_of_ownMember? found, Option.bind_some]
    exact callMember?_of_declares (declared.get hi' hi) _ arguments
  rw [method, overloads?_of_own overloads]
  dsimp only
  cases found : d.firstOverload? id arguments
      ((List.range methods.length).map (overloadName name)) with
  | none =>
    obtain ⟨method, mem, accepts⟩ := accepted
    obtain ⟨i, hi, rfl⟩ := List.getElem_of_mem mem
    rw [firstOverload?, List.findSome?_eq_none_iff] at found
    have hi' : i < methods.length := by rwa [← length]
    have called := found _ (List.mem_map_of_mem (List.mem_range.mpr hi'))
    have called : (d.member? id (overloadName name i)).bind
      (d.callMember? (overloadName name i) · arguments) = none := called
    rw [call hi' hi, if_pos accepts] at called
    cases called
  | some m =>
    obtain ⟨stored, mem, called⟩ := List.exists_of_findSome?_eq_some found
    obtain ⟨i, hi, rfl⟩ := List.mem_map.mp mem
    have hi := List.mem_range.mp hi
    have hi' : i < (body.methods name).length := by rwa [length]
    have called : (d.member? id (overloadName name i)).bind
      (d.callMember? (overloadName name i) · arguments) = some m := called
    rw [call hi hi'] at called
    split at called
    · cases called
      exact ⟨_, rfl, (declared.get hi' hi).parent_eq⟩
    · cases called

/-- A method that is alone is found if no overloads are inherited. -/
theorem exists_found_of_single (few : methods.length < 2)
    (accepted : ∃ method ∈ body.methods name,
      d.accepts (body.scope.methodType method) arguments = true)
    (noOverloads : ∀ s ∈ d.allSupertypes id, (d.object s).overloads? name = none) :
    ∃ m, d.method id name arguments = .found m ∧ m.member.parent = id := by
  have alone : decide (2 ≤ methods.length) = false := decide_eq_false (Nat.not_le.mpr few)
  have ownOverloads := stores.overloads?_name
  simp only [alone, Bool.false_eq_true, if_false] at ownOverloads
  have overloads : d.overloads? id name = none := by
    rw [overloads?, ancestry, List.findSome?_eq_none_iff]
    exact List.forall_mem_cons.mpr ⟨ownOverloads, noOverloads⟩
  obtain ⟨method, mem, accepts⟩ := accepted
  obtain ⟨i, hi', rfl⟩ := List.getElem_of_mem mem
  have hi : i < methods.length := by rwa [← declared.length_eq]
  have own := stores.ownMember?_placeName hi
  rw [placeName, if_pos few] at own
  have call := callMember?_of_declares (declared.get hi' hi) name arguments
  rw [List.get_eq_getElem, List.get_eq_getElem, if_pos accepts] at call
  rw [Dictionary.method, overloads, member?_of_ownMember? own]
  dsimp only
  rw [call]
  exact ⟨_, rfl, (declared.get hi' hi).parent_eq⟩

/-- An object calls a method of its own that accepts the arguments if it has
overloads, or inherits none. -/
theorem found_own_iff (wellFormed : d.WellFormed) (names : ∀ s, (d.object s).NamesOverloads)
    (accepted : ∃ method ∈ body.methods name,
      d.accepts (body.scope.methodType method) arguments = true) :
    (∃ m, d.method id name arguments = .found m ∧ m.member.parent = id) ↔
      2 ≤ (body.methods name).length ∨
        ∀ s ∈ d.allSupertypes id, (d.object s).overloads? name = none := by
  rw [declared.length_eq]
  by_cases many : 2 ≤ methods.length
  · exact iff_of_true (exists_found_of_overloads stores declared many accepted) (.inl many)
  · have few := Nat.not_le.mp many
    constructor
    · rintro ⟨m, found, own⟩
      refine .inr fun s mem => Classical.byContradiction fun inherited => ?_
      exact parent_ne_of_inherited stores wellFormed names few ⟨s, mem, inherited⟩ found own
    · rintro (many' | noOverloads)
      · exact absurd many' many
      · exact exists_found_of_single stores declared few accepted noOverloads

end Dictionary

/-- Two places have the same name if both stand for a method that is alone, or
both for overloads of one number. -/
theorem placeName_eq_iff (name : String) (a b i j : Nat) :
    placeName name a i = placeName name b j ↔ (a < 2 ∧ b < 2) ∨ (2 ≤ a ∧ 2 ≤ b ∧ i = j) := by
  unfold placeName
  split <;> split
  · exact iff_of_true rfl (.inl ⟨‹_›, ‹_›⟩)
  · exact iff_of_false (ne_overloadName_self name j) (by omega)
  · exact iff_of_false (ne_overloadName_self name i).symm (by omega)
  · rw [overloadName_inj, eq_self_iff_true, true_and]
    omega

namespace Dictionary

/-- What the dictionary has of the methods called `name` of a body: each is a
member under its stored name, and they are overloads if there are at least two. -/
structure HoldsMethods (d : Dictionary) (id : Nat) (body : TypeBody) (name : String) : Prop where
  ownMember? (i : Nat) (method : Tree.Method) : (body.methods name)[i]? = some method →
    ∃ member, d.Declares body.scope id (.method method) member ∧
      (d.object id).ownMember? (body.storedName name i) =
        some { member with name := body.storedName name i }
  overloads? : (d.object id).overloads? name =
    if 2 ≤ (body.methods name).length then
      some ((List.range (body.methods name).length).map (body.storedName name))
    else none

theorem Holds.holdsMethods {d : Dictionary} {id : Nat} {body : TypeBody} {name : String}
    (h : d.Holds id body) (apart : body.KeepsApart name) : d.HoldsMethods id body name := by
  obtain ⟨methods, stores, declared⟩ := h.stores apart
  have length := declared.length_eq
  constructor
  · intro i method hMethod
    obtain ⟨hi, rfl⟩ := List.getElem?_eq_some_iff.mp hMethod
    have hi' : i < methods.length := by rwa [← length]
    have own := stores.ownMember?_placeName hi'
    rw [← length] at own
    exact ⟨methods[i], declared.get hi hi', own⟩
  · rw [stores.overloads?_name, ← length]
    by_cases many : 2 ≤ (body.methods name).length
    · have stored : body.storedName name = overloadName name :=
        funext fun i => if_neg (Nat.not_lt.mpr many)
      rw [decide_eq_true many, if_pos rfl, if_pos many, stored]
    · rw [decide_eq_false many, if_neg Bool.false_ne_true, if_neg many]

/-- **Overriding depends on the number of overloads.** For two declared types
and a name whose methods keep their names to themselves: the types have the
methods under their stored names; two methods have the same stored name if and
only if each is alone in its type, or both are overloads with the same number;
and if the second type declares a method that accepts the arguments, a call on
it leads to a method it declares if and only if it has overloads of its own or
inherits none. -/
theorem overriding_iff {files : List (FileNamespace × SourceTree)} {a b : Nat}
    {bodyA bodyB : TypeBody} {name : String} (hA : (typeBodies files)[a]? = some bodyA)
    (hB : (typeBodies files)[b]? = some bodyB) (apartA : bodyA.KeepsApart name)
    (apartB : bodyB.KeepsApart name) :
    let d := ofFiles files
    d.HoldsMethods (firstDeclared + a) bodyA name ∧ d.HoldsMethods (firstDeclared + b) bodyB name ∧
      (∀ i j, bodyA.storedName name i = bodyB.storedName name j ↔
        ((bodyA.methods name).length < 2 ∧ (bodyB.methods name).length < 2) ∨
          (2 ≤ (bodyA.methods name).length ∧ 2 ≤ (bodyB.methods name).length ∧ i = j)) ∧
      ∀ arguments, (∃ method ∈ bodyB.methods name,
          d.accepts (bodyB.scope.methodType method) arguments = true) →
        ((∃ m, d.method (firstDeclared + b) name arguments = .found m ∧
            m.member.parent = firstDeclared + b) ↔
          2 ≤ (bodyB.methods name).length ∨
            ∀ s ∈ d.allSupertypes (firstDeclared + b), (d.object s).overloads? name = none) := by
  intro d
  refine ⟨(holds_ofFiles hA).holdsMethods apartA, (holds_ofFiles hB).holdsMethods apartB,
    fun i j => placeName_eq_iff name _ _ i j, fun arguments accepted => ?_⟩
  obtain ⟨methods, stores, declared⟩ := (holds_ofFiles hB).stores apartB
  exact found_own_iff stores declared (wellFormed_ofFiles files) (namesOverloads_ofFiles files)
    accepted

/-- A class inherits two methods `f` and declares one that accepts a number:
it is stored under another name, and a call with a number leads to an
inherited one. -/
theorem overriding_iff_alone :
    let f (type : String) : Tree.Member := .method ⟨{}, [], some (.named "int" 0), "f",
      [⟨false, .named type 0, "x", false, 0⟩], [], none, [], false, 0⟩
    let base : Tree.ClassDecl :=
      ⟨{}, "A", [], [], [], [], [f "int", f "String"], [], [], [], false, 0⟩
    let derived : Tree.ClassDecl :=
      ⟨{}, "B", [], [.named "A" 0], [], [], [f "int"], [], [], [], false, 0⟩
    let tree : SourceTree :=
      { package := none, items := [.classDecl base, .classDecl derived], tokens := .link [] 1 "" }
    let d := ofFiles [(.new "A.java", tree)]
    ∃ bodyA bodyB : TypeBody, bodyA.KeepsApart "f" ∧ bodyB.KeepsApart "f" ∧
      d.HoldsMethods firstDeclared bodyA "f" ∧ d.HoldsMethods (firstDeclared + 1) bodyB "f" ∧
      firstDeclared ∈ d.allSupertypes (firstDeclared + 1) ∧
      bodyA.storedName "f" 0 ≠ bodyB.storedName "f" 0 ∧
      (∃ method ∈ bodyB.methods "f",
        d.accepts (bodyB.scope.methodType method) [Native.number] = true) ∧
      ¬∃ m, d.method (firstDeclared + 1) "f" [Native.number] = .found m ∧
        m.member.parent = firstDeclared + 1 := by
  intro f base derived tree d
  let scope : CollectScope := ⟨.new "A.java", [], []⟩
  let bodyA : TypeBody := ⟨scope.inside "A" [], "A", [f "int", f "String"]⟩
  let bodyB : TypeBody := ⟨scope.inside "B" [], "B", [f "int"]⟩
  have apart {body : TypeBody} (h : ∀ m ∈ body.members, ∃ type, m = f type) :
      body.KeepsApart "f" := by
    constructor <;> intro m mem <;> obtain ⟨type, rfl⟩ := h m mem
    · exact ne_overloadName_self "f"
    · exact fun _ i => (ne_overloadName_self "f" i).symm
    · exact fun noMethod => by cases noMethod
  have apartA : bodyA.KeepsApart "f" :=
    apart (List.forall_mem_cons.mpr ⟨⟨_, rfl⟩, List.forall_mem_singleton.mpr ⟨_, rfl⟩⟩)
  have apartB : bodyB.KeepsApart "f" := apart (List.forall_mem_singleton.mpr ⟨_, rfl⟩)
  have inherits : firstDeclared ∈ d.allSupertypes (firstDeclared + 1) := by decide +kernel
  have accepts : d.accepts (bodyB.scope.methodType ⟨{}, [], some (.named "int" 0), "f",
      [⟨false, .named "int" 0, "x", false, 0⟩], [], none, [], false, 0⟩) [Native.number] = true := by
    decide +kernel
  have accepted : ∃ method ∈ bodyB.methods "f",
      d.accepts (bodyB.scope.methodType method) [Native.number] = true :=
    ⟨_, List.mem_cons_self, accepts⟩
  have hA : (typeBodies [(.new "A.java", tree)])[0]? = some bodyA := rfl
  have hB : (typeBodies [(.new "A.java", tree)])[1]? = some bodyB := rfl
  obtain ⟨holdsA, holdsB, names, calls⟩ := overriding_iff hA hB apartA apartB
  refine ⟨bodyA, bodyB, apartA, apartB, holdsA, holdsB, inherits, ?_, accepted, ?_⟩
  · rw [Ne, names 0 0]
    decide
  · rw [calls _ accepted]
    rintro (many | noOverloads)
    · exact absurd many (by decide)
    · have overloads := holdsA.overloads?
      have none := noOverloads firstDeclared inherits
      rw [show firstDeclared = firstDeclared + 0 from rfl, overloads, if_pos (by decide)] at none
      cases none

end Dictionary

end Javascribe

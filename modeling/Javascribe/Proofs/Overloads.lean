/-
# The names methods are stored under

A method that is alone of its name is stored under it. Methods that share a
name are stored under names of their own, by their places among them. Adding
methods one by one comes to this by moving the first of a name when the
second comes (`ObjectType.addMethod`); counting the methods of a list gives
the names at once (`storedMethodNames`). Both give the same names as long as
no method is called as an overload of another could be stored.

Key definitions: `placeName`, `ObjectType.Stores`, `ObjectType.declareAll`,
`ObjectType.addMethods`.
Key theorems: `overloadName_inj`, `ObjectType.Stores.addMethod`,
`ObjectType.Stores.declareAll`, `ObjectType.addMethods_stored`.
-/
import Javascribe.Proofs.DictionaryWellFormed
import Mathlib.Data.List.Induction
import Mathlib.Data.List.Nodup
import Mathlib.Data.List.Perm.Subperm

namespace Javascribe

/-! ### Names of overloads -/

theorem toList_overloadName (name : String) (i : Nat) :
    (overloadName name i).toList = name.toList ++ '_' :: Nat.toDigits 10 i := by
  have text : overloadName name i = name ++ "_" ++ toString i := rfl
  simp [text]

/-- The name and the number can be read off the name of an overload: no digit
is an underscore. -/
theorem overloadName_inj {name other : String} {i j : Nat} :
    overloadName name i = overloadName other j ↔ name = other ∧ i = j := by
  refine ⟨fun h => ?_, fun ⟨hName, hIndex⟩ => by rw [hName, hIndex]⟩
  have digits (k : Nat) : ∀ c ∈ (Nat.toDigits 10 k).reverse, (c != '_') = true := by
    intro c mem
    rw [bne_iff_ne]
    rintro rfl
    exact Nat.underscore_not_in_toDigits (List.mem_reverse.mp mem)
  have number (name : String) (k : Nat) :
      ((overloadName name k).toList.reverse.takeWhile (· != '_')).reverse = Nat.toDigits 10 k := by
    rw [toList_overloadName, List.reverse_append, List.reverse_cons, List.append_assoc,
      List.takeWhile_append_of_pos (digits k)]
    simp
  have same : Nat.toDigits 10 i = Nat.toDigits 10 j := by rw [← number name i, h, number]
  have hIndex : i = j := by
    rw [← Nat.ofDigitChars_ten_toDigits (n := i), same, Nat.ofDigitChars_ten_toDigits]
  have texts := congrArg String.toList h
  rw [toList_overloadName, toList_overloadName, same, List.append_cancel_right_eq] at texts
  exact ⟨String.toList_inj.mp texts, hIndex⟩

theorem ne_overloadName_self (name : String) (i : Nat) : name ≠ overloadName name i := by
  intro h
  have length := congrArg (·.toList.length) h
  simp only [toList_overloadName, List.length_append, List.length_cons] at length
  omega

/-- What does not end in a digit is not the name of an overload. -/
theorem ne_overloadName_of_getLast? {name : String} (h : ∀ c ∈ name.toList.getLast?, c.isDigit = false)
    (other : String) (i : Nat) : name ≠ overloadName other i := by
  rintro rfl
  have digits : Nat.toDigits 10 i ≠ [] := Nat.toDigits_ne_nil
  have isLast : (Nat.toDigits 10 i).getLast digits ∈ (overloadName other i).toList.getLast? := by
    rw [toList_overloadName, List.getLast?_append, List.getLast?_cons,
      List.getLast?_eq_some_getLast digits]
    rfl
  have digit := Nat.isDigit_of_mem_toDigits (by decide) (by decide) (List.getLast_mem digits)
  rw [h _ isLast] at digit
  cases digit

/-- The name under which the method number `i` of `count` with one name is stored. -/
def placeName (name : String) (count i : Nat) : String :=
  if count < 2 then name else overloadName name i

/-! ### Adding methods -/

namespace ObjectType

variable {object : ObjectType} {name key : String} {member first : ObjectMember}
  {methods : List ObjectMember}

theorem ownMember?_addMember (object : ObjectType) (member : ObjectMember) (key : String) :
    (object.addMember member).ownMember? key =
      if key = member.name then some member else object.ownMember? key :=
  Table.find?_insert _ _ _ _

theorem ownMember?_renameFirst (object : ObjectType) (name : String) (first : ObjectMember)
    (key : String) :
    (object.renameFirst name first).ownMember? key =
      if key = overloadName name 0 then some { first with name := overloadName name 0 }
      else if key = name then none
      else object.ownMember? key := by
  rw [ownMember?, renameFirst, Table.find?_insert, Table.find?_erase, ownMember?]

theorem overloads?_renameFirst (object : ObjectType) (name : String) (first : ObjectMember)
    (key : String) :
    (object.renameFirst name first).overloads? key =
      if key = name then some [overloadName name 0] else object.overloads? key :=
  Table.find?_insert _ _ _ _

theorem ownMember?_addOverload {names : List String}
    (h : object.overloads? member.name = some names) (key : String) :
    (object.addOverload member).1.ownMember? key =
      if key = overloadName member.name names.length then
        some { member with name := overloadName member.name names.length }
      else object.ownMember? key := by
  rw [overloads?] at h
  rw [ownMember?, addOverload, h, Option.getD_some, Table.find?_insert, ownMember?]

theorem overloads?_addOverload {names : List String}
    (h : object.overloads? member.name = some names) (key : String) :
    (object.addOverload member).1.overloads? key =
      if key = member.name then some (names ++ [overloadName member.name names.length])
      else object.overloads? key := by
  rw [overloads?] at h
  rw [overloads?, addOverload, h, Option.getD_some, Table.find?_insert, overloads?]

/-- The methods called `name`, in order, are in the object type: as overloads,
or the one there is under its name. -/
structure StoresAs (object : ObjectType) (name : String) (methods : List ObjectMember)
    (overloaded : Bool) : Prop where
  name_eq : ∀ m ∈ methods, m.name = name
  isMethod : ∀ m ∈ methods, m.isMethod = true
  ownMember?_name : object.ownMember? name = if overloaded then none else methods.head?
  ownMember?_overloadName (i : Nat) :
    object.ownMember? (overloadName name i) =
      if overloaded then methods[i]?.map ({ · with name := overloadName name i }) else none
  overloads?_name :
    object.overloads? name =
      if overloaded then some ((List.range methods.length).map (overloadName name)) else none

/-- The methods called `name`, in order, are in the object type, each under
the name of its place. -/
def Stores (object : ObjectType) (name : String) (methods : List ObjectMember) : Prop :=
  object.StoresAs name methods (decide (2 ≤ methods.length))

theorem stores_nil (noMembers : object.members = .empty) (noOverloads : object.overloads = .empty)
    (name : String) : object.Stores name [] where
  name_eq := by simp
  isMethod := by simp
  ownMember?_name := by rw [ownMember?, noMembers]; rfl
  ownMember?_overloadName _ := by rw [ownMember?, noMembers]; rfl
  overloads?_name := by rw [overloads?, noOverloads]; rfl

theorem stores_new (typeName : String) (category : ObjectCategory) (name : String) :
    (ObjectType.new typeName category).Stores name [] :=
  stores_nil rfl rfl name

/-- Each method is found under the name of its place. -/
theorem Stores.ownMember?_placeName (h : object.Stores name methods) {i : Nat}
    (hi : i < methods.length) :
    object.ownMember? (placeName name methods.length i) =
      some { methods[i] with name := placeName name methods.length i } := by
  by_cases few : methods.length < 2
  · obtain rfl : i = 0 := by omega
    rw [placeName, if_pos few, StoresAs.ownMember?_name h, decide_eq_false (by omega),
      if_neg Bool.false_ne_true, List.head?_eq_getElem?, List.getElem?_eq_getElem hi,
      ← StoresAs.name_eq h methods[0] (List.getElem_mem hi)]
  · rw [placeName, if_neg few, StoresAs.ownMember?_overloadName h, decide_eq_true (by omega),
      if_pos rfl, List.getElem?_eq_getElem hi, Option.map_some]

namespace StoresAs

variable {overloaded : Bool}

/-- What is not stored under the name or the name of an overload does not matter. -/
theorem of_same {object' : ObjectType} (h : object.StoresAs name methods overloaded)
    (hName : object'.ownMember? name = object.ownMember? name)
    (hOverloads : ∀ i, object'.ownMember? (overloadName name i) =
      object.ownMember? (overloadName name i))
    (same : object'.overloads? name = object.overloads? name) :
    object'.StoresAs name methods overloaded where
  name_eq := h.name_eq
  isMethod := h.isMethod
  ownMember?_name := hName.trans h.ownMember?_name
  ownMember?_overloadName i := (hOverloads i).trans (h.ownMember?_overloadName i)
  overloads?_name := same.trans h.overloads?_name

/-- The first method of a name is stored under it. -/
theorem addMember (h : object.StoresAs member.name [] false) (isMethod : member.isMethod = true) :
    (object.addMember member).StoresAs member.name [member] false where
  name_eq := List.forall_mem_singleton.mpr rfl
  isMethod := List.forall_mem_singleton.mpr isMethod
  ownMember?_name := by
    rw [ownMember?_addMember, if_pos rfl]
    rfl
  ownMember?_overloadName i := by
    rw [ownMember?_addMember, if_neg (ne_overloadName_self _ i).symm, h.ownMember?_overloadName]
    rfl
  overloads?_name := h.overloads?_name

/-- The only method of a name becomes the first overload. -/
theorem renameFirst (h : object.StoresAs name [first] false) :
    (object.renameFirst name first).StoresAs name [first] true where
  name_eq := h.name_eq
  isMethod := h.isMethod
  ownMember?_name := by
    rw [ownMember?_renameFirst, if_neg (ne_overloadName_self name 0), if_pos rfl]
    rfl
  ownMember?_overloadName i := by
    rw [ownMember?_renameFirst, if_neg (ne_overloadName_self name i).symm,
      h.ownMember?_overloadName]
    by_cases isFirst : i = 0
    · subst isFirst
      rw [if_pos rfl]
      rfl
    · rw [if_neg fun same => isFirst (overloadName_inj.mp same).2,
        List.getElem?_eq_none (Nat.pos_of_ne_zero isFirst)]
      rfl
  overloads?_name := by
    rw [overloads?_renameFirst, if_pos rfl]
    rfl

/-- One more overload takes the next place. -/
theorem addOverload (h : object.StoresAs member.name methods true)
    (isMethod : member.isMethod = true) :
    (object.addOverload member).1.StoresAs member.name (methods ++ [member]) true := by
  have overloads := h.overloads?_name
  rw [if_pos rfl] at overloads
  have length : ((List.range methods.length).map (overloadName member.name)).length =
      methods.length := by rw [List.length_map, List.length_range]
  constructor
  · exact List.forall_mem_append.mpr ⟨h.name_eq, List.forall_mem_singleton.mpr rfl⟩
  · exact List.forall_mem_append.mpr ⟨h.isMethod, List.forall_mem_singleton.mpr isMethod⟩
  · rw [ownMember?_addOverload overloads, if_neg (ne_overloadName_self _ _), h.ownMember?_name]
    rfl
  · intro i
    rw [ownMember?_addOverload overloads, h.ownMember?_overloadName, length, if_pos rfl, if_pos rfl]
    by_cases isLast : i = methods.length
    · subst isLast
      rw [if_pos rfl, List.getElem?_concat_length, Option.map_some]
    · rw [if_neg fun same => isLast (overloadName_inj.mp same).2]
      by_cases before : i < methods.length
      · rw [List.getElem?_append_left before]
      · rw [List.getElem?_eq_none (by omega), List.getElem?_eq_none (by simp; omega)]
  · rw [overloads?_addOverload overloads, if_pos rfl, length, List.length_append,
      List.length_singleton, List.range_succ, List.map_append, List.map_singleton]
    rfl

end StoresAs

/-! Only the name of the method and the names of its overloads are touched. -/

theorem ownMember?_addOverload_of_ne (object : ObjectType) (member : ObjectMember)
    (h : ∀ i, key ≠ overloadName member.name i) :
    (object.addOverload member).1.ownMember? key = object.ownMember? key := by
  rw [ownMember?, addOverload, Table.find?_insert, if_neg (h _), ownMember?]

theorem overloads?_addOverload_of_ne (object : ObjectType) (member : ObjectMember)
    (h : key ≠ member.name) : (object.addOverload member).1.overloads? key = object.overloads? key := by
  rw [overloads?, addOverload, Table.find?_insert, if_neg h, overloads?]

theorem ownMember?_addMethod_of_ne (object : ObjectType) (member : ObjectMember)
    (hName : key ≠ member.name) (hOverloads : ∀ i, key ≠ overloadName member.name i) :
    (object.addMethod member).1.ownMember? key = object.ownMember? key := by
  unfold addMethod
  split
  · rw [ownMember?_addOverload_of_ne _ _ hOverloads, ownMember?_renameFirst,
      if_neg (hOverloads 0), if_neg hName]
  · split
    · exact ownMember?_addOverload_of_ne _ _ hOverloads
    · rw [ownMember?_addMember, if_neg hName]

theorem overloads?_addMethod_of_ne (object : ObjectType) (member : ObjectMember)
    (h : key ≠ member.name) : (object.addMethod member).1.overloads? key = object.overloads? key := by
  unfold addMethod
  split
  · rw [overloads?_addOverload_of_ne _ _ h, overloads?_renameFirst, if_neg h]
  · split
    · exact overloads?_addOverload_of_ne _ _ h
    · rfl

/-! What adding a method does depends on the methods of its name that are there. -/

theorem addMethod_of_none (h : object.Stores member.name []) :
    (object.addMethod member).1 = object.addMember member := by
  have noMember : object.members.find? member.name = none := h.ownMember?_name
  have noOverloads : object.overloads.find? member.name = none := h.overloads?_name
  rw [addMethod, noMember, Table.contains, noOverloads]
  rfl

theorem addMethod_of_one (h : object.Stores member.name [first]) :
    (object.addMethod member).1 = ((object.renameFirst member.name first).addOverload member).1 := by
  have found : object.members.find? member.name = some first := h.ownMember?_name
  rw [addMethod, found, Option.filter_some, if_pos (h.isMethod first List.mem_cons_self)]

theorem addMethod_of_overloads (h : object.StoresAs member.name methods true) :
    (object.addMethod member).1 = (object.addOverload member).1 := by
  have noMember : object.members.find? member.name = none := h.ownMember?_name
  have overloads : object.overloads.find? member.name = some _ := h.overloads?_name
  rw [addMethod, noMember, Table.contains, overloads]
  rfl

/-- A method of the name takes the place after those that are there. -/
theorem Stores.addMethod (h : object.Stores member.name methods) (isMethod : member.isMethod = true) :
    (object.addMethod member).1.Stores member.name (methods ++ [member]) := by
  obtain _ | ⟨first, _ | ⟨second, rest⟩⟩ := methods
  · rw [addMethod_of_none h]
    exact StoresAs.addMember h isMethod
  · rw [addMethod_of_one h]
    exact (StoresAs.renameFirst h).addOverload isMethod
  · have many : ∀ ms : List ObjectMember, decide (2 ≤ (first :: second :: ms).length) = true := by simp
    rw [Stores, many] at h
    rw [addMethod_of_overloads h, Stores, List.cons_append, List.cons_append, many]
    exact h.addOverload isMethod

/-- A method of another name leaves the methods of this name alone. -/
theorem Stores.addMethod_of_ne (h : object.Stores name methods) (other : name ≠ member.name)
    (hName : ∀ i, name ≠ overloadName member.name i)
    (hMember : ∀ i, member.name ≠ overloadName name i) :
    (object.addMethod member).1.Stores name methods :=
  StoresAs.of_same h (ownMember?_addMethod_of_ne _ _ other hName)
    (fun i => ownMember?_addMethod_of_ne _ _ (hMember i).symm
      fun _ same => other (overloadName_inj.mp same).1)
    (overloads?_addMethod_of_ne _ _ other)

/-- The number of members grows by one, and no name comes in twice. -/
theorem StoresAs.keys_addOverload (h : object.StoresAs member.name methods true)
    (nodup : object.members.keys.Nodup) :
    (object.addOverload member).1.members.keys.Nodup ∧
      (object.addOverload member).1.members.keys.length = object.members.keys.length + 1 := by
  have names : object.overloads.find? member.name = some _ := h.overloads?_name
  have free : object.members.find? (overloadName member.name methods.length) = none := by
    have own := h.ownMember?_overloadName methods.length
    rwa [if_pos rfl, List.getElem?_eq_none (Nat.le_refl _)] at own
  rw [ObjectType.addOverload, names, Option.getD_some, List.length_map, List.length_range]
  exact Table.nodup_keys_insert _ free nodup

theorem StoresAs.keys_renameFirst (h : object.StoresAs name [first] false)
    (nodup : object.members.keys.Nodup) :
    (object.renameFirst name first).members.keys.Nodup ∧
      (object.renameFirst name first).members.keys.length = object.members.keys.length := by
  have found : object.members.find? name = some first := h.ownMember?_name
  have perm := Table.keys_erase_perm nodup found
  have free : (object.members.erase name).find? (overloadName name 0) = none := by
    rw [Table.find?_erase, if_neg (ne_overloadName_self name 0).symm]
    exact h.ownMember?_overloadName 0
  have erased := (perm.nodup_iff.mpr nodup).of_cons
  rw [← perm.length_eq]
  exact Table.nodup_keys_insert _ free erased

theorem Stores.keys_addMethod (h : object.Stores member.name methods)
    (nodup : object.members.keys.Nodup) :
    (object.addMethod member).1.members.keys.Nodup ∧
      (object.addMethod member).1.members.keys.length = object.members.keys.length + 1 := by
  obtain _ | ⟨first, _ | ⟨second, rest⟩⟩ := methods
  · have free : object.members.find? member.name = none := h.ownMember?_name
    rw [addMethod_of_none h]
    exact Table.nodup_keys_insert _ free nodup
  · have renamed := StoresAs.keys_renameFirst h nodup
    rw [addMethod_of_one h, ← renamed.2]
    exact (StoresAs.renameFirst h).keys_addOverload renamed.1
  · have many : decide (2 ≤ (first :: second :: rest).length) = true := by simp
    rw [Stores, many] at h
    rw [addMethod_of_overloads h]
    exact h.keys_addOverload nodup

/-! ### Declaring members -/

/-- The object type with a declared member: a method, or what is no method
and is stored under its own name. -/
def declare (object : ObjectType) (member : ObjectMember) : ObjectType :=
  if member.isMethod then (object.addMethod member).1 else object.addMember member

/-- The object type with members declared in order. -/
def declareAll (object : ObjectType) (members : List ObjectMember) : ObjectType :=
  members.foldl declare object

theorem declareAll_concat (object : ObjectType) (members : List ObjectMember)
    (member : ObjectMember) :
    object.declareAll (members ++ [member]) = (object.declareAll members).declare member := by
  rw [declareAll, List.foldl_append]
  rfl

end ObjectType

/-- The member does not take a name under which methods called `name` are
stored, and does not store its overloads under `name`. -/
structure ObjectMember.LeavesAlone (member : ObjectMember) (name : String) : Prop where
  ne_overloadName (i : Nat) : member.name ≠ overloadName name i
  overloadName_ne : member.isMethod = true → ∀ i, overloadName member.name i ≠ name
  data_ne : member.isMethod = false → member.name ≠ name

namespace ObjectType

variable {object : ObjectType} {name : String} {member : ObjectMember}
  {methods members : List ObjectMember}

/-- What one more declaration does to the methods called `name`. -/
theorem Stores.declare (h : object.Stores name methods) (alone : member.LeavesAlone name) :
    (object.declare member).Stores name
      (methods ++ [member].filter fun m => m.isMethod && m.name == name) := by
  unfold ObjectType.declare
  split
  · next isMethod =>
    by_cases same : member.name = name
    · subst same
      rw [List.filter_cons_of_pos (by simp [isMethod])]
      exact h.addMethod isMethod
    · rw [List.filter_cons_of_neg (by simp [same]), List.filter_nil, List.append_nil]
      exact h.addMethod_of_ne (Ne.symm same) (fun i => (alone.overloadName_ne isMethod i).symm)
        alone.ne_overloadName
  · next noMethod =>
    have noMethod := Bool.eq_false_iff.mpr noMethod
    rw [List.filter_cons_of_neg (by simp [noMethod]), List.filter_nil, List.append_nil]
    refine StoresAs.of_same h ?_ (fun i => ?_) rfl
    · rw [ownMember?_addMember, if_neg (alone.data_ne noMethod).symm]
    · rw [ownMember?_addMember, if_neg (alone.ne_overloadName i).symm]

/-- After all declarations the methods of a name are stored in their order. -/
theorem Stores.declareAll (h : object.Stores name [])
    (alone : ∀ m ∈ members, m.LeavesAlone name) :
    (object.declareAll members).Stores name
      (members.filter fun m => m.isMethod && m.name == name) := by
  induction members using List.reverseRecOn with
  | nil => exact h
  | append_singleton members member ih =>
    rw [List.forall_mem_append, List.forall_mem_singleton] at alone
    rw [declareAll_concat, List.filter_append]
    exact (ih alone.1).declare alone.2

theorem overloads?_declareAll_of_forall_ne (object : ObjectType)
    (h : ∀ m ∈ members, m.name ≠ name) :
    (object.declareAll members).overloads? name = object.overloads? name := by
  induction members using List.reverseRecOn with
  | nil => rfl
  | append_singleton members member ih =>
    rw [List.forall_mem_append, List.forall_mem_singleton] at h
    rw [declareAll_concat, ← ih h.1, ObjectType.declare]
    split
    · exact overloads?_addMethod_of_ne _ _ h.2.symm
    · rfl

/-! ### Adding a list of methods -/

/-- The object type with methods added in order. -/
def addMethods (object : ObjectType) (methods : List ObjectMember) : ObjectType :=
  methods.foldl (fun object method => (object.addMethod method).1) object

theorem addMethods_concat (object : ObjectType) (methods : List ObjectMember)
    (method : ObjectMember) :
    object.addMethods (methods ++ [method]) = ((object.addMethods methods).addMethod method).1 := by
  rw [addMethods, List.foldl_append]
  rfl

theorem addMethods_eq_declareAll (object : ObjectType) (isMethod : ∀ m ∈ methods, m.isMethod = true) :
    object.addMethods methods = object.declareAll methods := by
  induction methods using List.reverseRecOn with
  | nil => rfl
  | append_singleton methods method ih =>
    rw [List.forall_mem_append, List.forall_mem_singleton] at isMethod
    rw [addMethods_concat, declareAll_concat, ih isMethod.1, declare, if_pos isMethod.2]

/-- The methods called `name` have their names to themselves. -/
theorem stores_addMethods (h : object.Stores name []) (isMethod : ∀ m ∈ methods, m.isMethod = true)
    (hName : ∀ m ∈ methods, ∀ i, m.name ≠ overloadName name i)
    (hOthers : ∀ m ∈ methods, ∀ i, overloadName m.name i ≠ name) :
    (object.addMethods methods).Stores name (methods.filter (·.name == name)) := by
  have alone : ∀ m ∈ methods, m.LeavesAlone name := fun m mem =>
    ⟨hName m mem, fun _ => hOthers m mem, fun noMethod => by
      rw [isMethod m mem] at noMethod
      cases noMethod⟩
  have stores := h.declareAll alone
  rw [← addMethods_eq_declareAll object isMethod] at stores
  rwa [List.filter_congr fun m mem => by rw [isMethod m mem, Bool.true_and]] at stores

/-- As many members are in the object type as methods were added. -/
theorem keys_addMethods (typeName : String) (category : ObjectCategory)
    (isMethod : ∀ m ∈ methods, m.isMethod = true)
    (apart : ∀ m ∈ methods, ∀ m' ∈ methods, ∀ i, m.name ≠ overloadName m'.name i) :
    ((new typeName category).addMethods methods).members.keys.Nodup ∧
      ((new typeName category).addMethods methods).members.keys.length = methods.length := by
  induction methods using List.reverseRecOn with
  | nil => exact ⟨.nil, rfl⟩
  | append_singleton methods method ih =>
    have mem : method ∈ methods ++ [method] := List.mem_append_right _ List.mem_cons_self
    have old : ∀ m ∈ methods, m ∈ methods ++ [method] := fun m => List.mem_append_left _
    have isMethods : ∀ m ∈ methods, m.isMethod = true := fun m hm => isMethod m (old m hm)
    obtain ⟨nodup, length⟩ := ih isMethods fun m hm m' hm' => apart m (old m hm) m' (old m' hm')
    have stores := stores_addMethods (stores_new typeName category method.name) isMethods
      (fun m hm => apart m (old m hm) method mem)
      (fun m hm i => (apart method mem m (old m hm) i).symm)
    rw [addMethods_concat, List.length_append, List.length_singleton, ← length]
    exact stores.keys_addMethod nodup

end ObjectType

/-! ### Counting -/

theorem length_storedNamesFrom (all earlier names : List String) :
    (storedNamesFrom all earlier names).length = names.length := by
  induction names generalizing earlier with
  | nil => rfl
  | cons name names ih => rw [storedNamesFrom, List.length_cons, ih, List.length_cons]

/-- A name is counted among the names before it. -/
theorem getElem?_storedNamesFrom (all earlier names : List String) (i : Nat) :
    (storedNamesFrom all earlier names)[i]? = names[i]?.map fun name =>
      placeName name (all.count name) (earlier.count name + (names.take i).count name) := by
  induction names generalizing earlier i with
  | nil => rfl
  | cons name names ih =>
    cases i with
    | zero => simp [storedNamesFrom, placeName]
    | succ i =>
      rw [storedNamesFrom, List.getElem?_cons_succ, ih, List.getElem?_cons_succ, List.take_succ_cons]
      congr 1
      funext other
      rw [List.count_cons, List.count_cons]
      congr 1
      omega

/-- The names of one kind in the list are numbered from those before it on. -/
theorem filter_storedNamesFrom (all earlier names : List String) (name : String) :
    ((names.zip (storedNamesFrom all earlier names)).filter (·.1 == name)).map (·.2) =
      (List.range' (earlier.count name) (names.count name)).map (placeName name (all.count name)) := by
  induction names generalizing earlier with
  | nil => rfl
  | cons first names ih =>
    rw [storedNamesFrom, List.zip_cons_cons]
    by_cases same : first = name
    · subst same
      rw [List.filter_cons_of_pos (by simp), List.map_cons, ih, List.count_cons_self,
        List.count_cons_self, List.range'_succ, List.map_cons]
      rfl
    · rw [List.filter_cons_of_neg (by simpa using same), ih, List.count_cons_of_ne same,
        List.count_cons_of_ne same]

theorem placeName_inj {n m : String} {a b i j : Nat} (hn : ∀ k, n ≠ overloadName m k)
    (hm : ∀ k, m ≠ overloadName n k) (same : placeName n a i = placeName m b j) :
    n = m ∧ (2 ≤ a → 2 ≤ b → i = j) := by
  unfold placeName at same
  split at same <;> split at same
  · exact ⟨same, fun _ _ => by omega⟩
  · exact absurd same (hn j)
  · exact absurd same.symm (hm i)
  · obtain ⟨hName, hIndex⟩ := overloadName_inj.mp same
    exact ⟨hName, fun _ _ => hIndex⟩

theorem count_take_lt {names : List String} {name : String} {i j : Nat} (h : i < j)
    (hi : names[i]? = some name) : (names.take i).count name < (names.take j).count name := by
  obtain ⟨lt, get⟩ := List.getElem?_eq_some_iff.mp hi
  calc (names.take i).count name < (names.take (i + 1)).count name := by
        rw [List.take_succ_eq_append_getElem lt, List.count_append, get, List.count_singleton_self]
        omega
    _ ≤ (names.take j).count name :=
        (List.take_prefix_take_left h).sublist.count_le name

/-- Counting gives every method a name of its own. -/
theorem nodup_storedNamesFrom {names : List String}
    (apart : ∀ n ∈ names, ∀ m ∈ names, ∀ k, n ≠ overloadName m k) :
    (storedNamesFrom names [] names).Nodup := by
  have stored {i : Nat} (h : i < names.length) :
      (storedNamesFrom names [] names)[i]? =
        some (placeName names[i] (names.count names[i]) ((names.take i).count names[i])) := by
    rw [getElem?_storedNamesFrom, List.getElem?_eq_getElem h, Option.map_some, List.count_nil,
      Nat.zero_add]
  rw [List.Nodup, List.pairwise_iff_getElem]
  intro i j hi hj lt same
  rw [← Option.some_inj, ← List.getElem?_eq_getElem, ← List.getElem?_eq_getElem] at same
  rw [length_storedNamesFrom] at hi hj
  rw [stored hi, stored hj, Option.some_inj] at same
  obtain ⟨hName, hPlace⟩ := placeName_inj (apart _ (List.getElem_mem hi) _ (List.getElem_mem hj))
    (apart _ (List.getElem_mem hj) _ (List.getElem_mem hi)) same
  -- the second of the two has one more of the name before it
  have before := count_take_lt lt (List.getElem?_eq_getElem hi)
  have within := count_take_lt hj (List.getElem?_eq_getElem hj)
  rw [List.take_length] at within
  rw [hName] at before hPlace
  have := hPlace (by omega) (by omega)
  omega

/-- The methods of a name, by their places. -/
theorem getElem?_filter_countP_take {α : Type} {p : α → Bool} {l : List α} {i : Nat}
    (hi : i < l.length) (h : p l[i] = true) : (l.filter p)[(l.take i).countP p]? = some l[i] := by
  have split : l.filter p = (l.take i).filter p ++ l[i] :: (l.drop (i + 1)).filter p := by
    rw [← List.filter_cons_of_pos h, ← List.filter_append, ← List.drop_eq_getElem_cons hi,
      List.take_append_drop]
  rw [split, List.countP_eq_length_filter, List.getElem?_append_right (Nat.le_refl _), Nat.sub_self,
    List.getElem?_cons_zero]

namespace ObjectType

variable (typeName : String) (category : ObjectCategory) {members : List ObjectMember}

/-- A method is stored under the name that counting gives it. -/
theorem ownMember?_addMethods (isMethod : ∀ m ∈ members, m.isMethod = true)
    (apart : ∀ m ∈ members, ∀ m' ∈ members, ∀ k, m.name ≠ overloadName m'.name k) {i : Nat}
    {name : String} (hi : i < members.length)
    (stored : (storedNamesFrom (members.map (·.name)) [] (members.map (·.name)))[i]? = some name) :
    ((new typeName category).addMethods members).ownMember? name =
      some { members[i] with name := name } := by
  have mem := List.getElem_mem hi
  have stores := stores_addMethods (stores_new typeName category members[i].name) isMethod
    (fun m hm => apart m hm _ mem) (fun m hm k => (apart _ mem m hm k).symm)
  have place := getElem?_filter_countP_take (p := (·.name == members[i].name)) hi (by simp)
  obtain ⟨lt, get⟩ := List.getElem?_eq_some_iff.mp place
  have found := stores.ownMember?_placeName lt
  rw [get, ← List.countP_eq_length_filter] at found
  rw [getElem?_storedNamesFrom, List.getElem?_map, List.getElem?_eq_getElem hi, Option.map_some,
    Option.map_some, List.count_nil, Nat.zero_add, ← List.map_take, List.count, List.countP_map,
    List.countP_map, Option.some_inj] at stored
  subst stored
  exact found

/-- Nothing but the methods is stored. -/
theorem entries_addMethods_perm (isMethod : ∀ m ∈ members, m.isMethod = true)
    (apart : ∀ m ∈ members, ∀ m' ∈ members, ∀ k, m.name ≠ overloadName m'.name k) :
    ((new typeName category).addMethods members).members.entries.Perm
      (((storedNamesFrom (members.map (·.name)) [] (members.map (·.name))).zip members).map
        fun p => (p.1, { p.2 with name := p.1 })) := by
  have length := length_storedNamesFrom (members.map (·.name)) [] (members.map (·.name))
  rw [List.length_map] at length
  have names : (storedNamesFrom (members.map (·.name)) [] (members.map (·.name))).Nodup :=
    nodup_storedNamesFrom (by simpa using apart)
  -- the entries asked for are different and are all there, so there are no others
  refine (List.Subperm.perm_of_length_le (List.subperm_of_subset ?_ ?_) ?_).symm
  · refine List.Nodup.of_map (·.1) ?_
    rw [List.map_map]
    change (List.map Prod.fst _).Nodup
    rwa [List.map_fst_zip (Nat.le_of_eq length)]
  · intro entry mem
    obtain ⟨i, hi, rfl⟩ := List.getElem_of_mem mem
    rw [List.length_map, List.length_zip] at hi
    rw [List.getElem_map, List.getElem_zip]
    exact Table.mem_of_find? (ownMember?_addMethods _ _ isMethod apart (by omega)
      (List.getElem?_eq_getElem (by omega)))
  · have keys := (keys_addMethods typeName category isMethod apart).2
    rw [Table.keys, List.length_map] at keys
    exact Nat.le_of_eq (by rw [keys, List.length_map, List.length_zip, length, Nat.min_self])

theorem overloads?_addMethods (isMethod : ∀ m ∈ members, m.isMethod = true)
    (apart : ∀ m ∈ members, ∀ m' ∈ members, ∀ k, m.name ≠ overloadName m'.name k) (name : String) :
    ((new typeName category).addMethods members).overloads? name =
      if 2 ≤ (members.map (·.name)).count name then
        some ((List.range ((members.map (·.name)).count name)).map (overloadName name))
      else none := by
  by_cases declared : ∃ m ∈ members, m.name = name
  · obtain ⟨m, mem, rfl⟩ := declared
    have stores := stores_addMethods (stores_new typeName category m.name) isMethod
      (fun m' hm => apart m' hm m mem) (fun m' hm k => (apart m mem m' hm k).symm)
    rw [stores.overloads?_name, List.count, List.countP_map, ← List.countP_eq_length_filter]
    simp only [decide_eq_true_eq]
    rfl
  · have others : ∀ m ∈ members, m.name ≠ name := fun m mem same => declared ⟨m, mem, same⟩
    rw [addMethods_eq_declareAll _ isMethod, overloads?_declareAll_of_forall_ne _ others,
      List.count_eq_zero.mpr (by simpa using others)]
    rfl

/-- **Both ways of naming methods agree.** Methods that are added one by one
are stored under the names that counting gives them, each under its own, and
nothing else is stored. -/
theorem addMethods_stored (typeName : String) (category : ObjectCategory)
    {methods : List Tree.Method} {members : List ObjectMember}
    (names : members.map (·.name) = methods.map (·.name))
    (isMethod : ∀ m ∈ members, m.isMethod = true)
    (apart : ∀ m ∈ methods, ∀ m' ∈ methods, ∀ k, m.name ≠ overloadName m'.name k) :
    let object := (ObjectType.new typeName category).addMethods members
    let stored := storedMethodNames methods
    stored.length = members.length ∧ stored.Nodup ∧
      (∀ (i : Nat) (m : ObjectMember) name, members[i]? = some m → stored[i]? = some name →
        object.ownMember? name = some { m with name := name }) ∧
      object.ownMembers.Perm ((stored.zip members).map fun p => { p.2 with name := p.1 }) ∧
      object.ownMembers.length = members.length ∧
      ∀ name, object.overloads? name =
        let overloads := ((methods.zip stored).filter (·.1.name == name)).map (·.2)
        if 2 ≤ overloads.length then some overloads else none := by
  intro object stored
  have apart : ∀ m ∈ members, ∀ m' ∈ members, ∀ k, m.name ≠ overloadName m'.name k := by
    have all : ∀ n ∈ methods.map (·.name), ∀ n' ∈ methods.map (·.name), ∀ k,
        n ≠ overloadName n' k := by simpa using apart
    rw [← names] at all
    simpa using all
  have hStored : stored = storedNamesFrom (members.map (·.name)) [] (members.map (·.name)) := by
    rw [names]
    rfl
  have length : stored.length = members.length := by
    rw [hStored, length_storedNamesFrom, List.length_map]
  have values : object.ownMembers.Perm ((stored.zip members).map fun p => { p.2 with name := p.1 }) := by
    have values := (entries_addMethods_perm typeName category isMethod apart).map (·.2)
    rwa [List.map_map, ← hStored] at values
  refine ⟨length, ?_, ?_, ?_, ?_, ?_⟩
  · rw [hStored]
    exact nodup_storedNamesFrom (by simpa using apart)
  · intro i m name hMember hName
    obtain ⟨hi, rfl⟩ := List.getElem?_eq_some_iff.mp hMember
    exact ownMember?_addMethods typeName category isMethod apart hi (hStored ▸ hName)
  · exact values
  · rw [values.length_eq, List.length_map, List.length_zip, length, Nat.min_self]
  · intro name
    have counted := filter_storedNamesFrom (methods.map (·.name)) [] (methods.map (·.name)) name
    rw [List.zip_map_left, List.filter_map, List.map_map, List.count_nil, ← List.range_eq_range']
      at counted
    change ((methods.zip stored).filter (·.1.name == name)).map (·.2) = _ at counted
    simp only [object]
    rw [overloads?_addMethods typeName category isMethod apart, names, counted, List.length_map, List.length_range]
    split
    · next many =>
      refine congrArg some (List.map_congr_left fun i _ => ?_)
      rw [placeName, if_neg (Nat.not_lt.mpr many)]
    · rfl

/-- Methods of three names, one of them with an underscore, in turns. -/
theorem addMethods_stored_interleaved :
    let names := ["f", "g", "f", "f_", "g", "f"]
    let methods : List Tree.Method :=
      names.map fun name => ⟨{}, [], none, name, [], [], none, [], false, 0⟩
    let members : List ObjectMember := names.zipIdx.map fun p =>
      { name := p.1, constraint := .function p.2, parent := 2 }
    let object := (ObjectType.new "A" .classType).addMethods members
    storedMethodNames methods = ["f_0", "g_0", "f_1", "f_", "g_1", "f_2"] ∧
      object.ownMembers.length = 6 ∧
      object.ownMember? "f_0" = some { name := "f_0", constraint := .function 0, parent := 2 } ∧
      object.overloads? "f" = some ["f_0", "f_1", "f_2"] ∧ object.overloads? "f_" = none := by
  intro names methods members object
  have apart : ∀ m ∈ methods, ∀ m' ∈ methods, ∀ k, m.name ≠ overloadName m'.name k := by
    have noDigit : ∀ name ∈ names, name.toList.getLast?.all (!·.isDigit) = true := by decide
    intro m mem m' _
    obtain ⟨name, hName, rfl⟩ := List.mem_map.mp mem
    refine ne_overloadName_of_getLast? (fun c last => ?_) m'.name
    have digit := noDigit name hName
    rw [Option.mem_def.mp last] at digit
    simpa using digit
  have stored : storedMethodNames methods = ["f_0", "g_0", "f_1", "f_", "g_1", "f_2"] := by
    decide +kernel
  have names_eq : members.map (·.name) = methods.map (·.name) := rfl
  have agree := addMethods_stored "A" .classType names_eq (by decide) apart
  rw [stored] at agree
  obtain ⟨_, _, found, _, length, overloads⟩ := agree
  exact ⟨stored, length, found 0 _ _ rfl rfl, overloads "f", overloads "f_"⟩

end ObjectType

end Javascribe
